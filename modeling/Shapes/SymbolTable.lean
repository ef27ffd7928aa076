import Shapes.Table

/-!
# Symbol tables

A symbol table gives every text a 32-bit symbol and finds the text again from
the symbol.  Texts are spread over sixteen buckets; a symbol holds the bucket
in its low four bits and the position inside the bucket in the others.  The
empty text has symbol zero from the start.

A bucket finds symbols in a map and texts in a list.  How texts are spread over
buckets does not matter, so the assignment is a parameter of whatever needs it.
-/

namespace Shapes

structure Symbol where
  raw : UInt32
  deriving DecidableEq, Repr

namespace Symbol

def none : Symbol := ⟨0⟩

def isNone (s : Symbol) : Bool :=
  s = none

def pack (position : Nat) (bucket : Fin 16) : Symbol :=
  ⟨(UInt32.ofNat position <<< 4) ||| UInt32.ofNat bucket.val⟩

def bucket (s : Symbol) : Fin 16 :=
  ⟨s.raw.toNat % 16, Nat.mod_lt _ (by decide)⟩

def position (s : Symbol) : Nat :=
  (s.raw >>> 4).toNat

def positionCount : Nat := 268435456

end Symbol

/-- Texts in the order in which they came, and the symbol that each of them was given. -/
structure SymbolBucket where
  symbols : Table Symbol
  texts : Array String

namespace SymbolBucket

def empty : SymbolBucket := ⟨.empty, #[]⟩

/-- Put a text at the next position. -/
def add (bucket : SymbolBucket) (text : String) (symbol : Symbol) : SymbolBucket :=
  ⟨bucket.symbols.insert text symbol, bucket.texts.push text⟩

end SymbolBucket

structure SymbolTable where
  buckets : Vector SymbolBucket 16

namespace SymbolTable

def initial : SymbolTable :=
  ⟨(Vector.replicate 16 .empty).set 0 (SymbolBucket.empty.add "" .none)⟩

def setBucket (t : SymbolTable) (index : Fin 16) (bucket : SymbolBucket) : SymbolTable :=
  ⟨t.buckets.set index bucket⟩

section Assignment

variable (assign : String -> Fin 16)

def lookup? (t : SymbolTable) (text : String) : Option Symbol :=
  if text = "" then some .none
  else (t.buckets.get (assign text)).symbols.get? text

/-- The symbol of a text, which is added when it is new and there is room. -/
def intern (t : SymbolTable) (text : String) : Symbol × SymbolTable :=
  if text = "" then (.none, t)
  else
    let index := assign text
    let bucket := t.buckets.get index
    match bucket.symbols.get? text with
    | some symbol => (symbol, t)
    | none =>
        if Symbol.positionCount ≤ bucket.texts.size then (.none, t)
        else
          let symbol := .pack bucket.texts.size index
          (symbol, t.setBucket index (bucket.add text symbol))

/-- Keywords and field names that documents use often. -/
def commonTexts : List String :=
  ["string", "number", "boolean", "null", "undefined", "any", "unknown", "never",
   "id", "name", "value", "type", "kind", "key", "length", "data"]

def preload (t : SymbolTable) : SymbolTable :=
  commonTexts.foldl (fun t text => (t.intern assign text).2) t

end Assignment

def text? (t : SymbolTable) (s : Symbol) : Option String :=
  (t.buckets.get s.bucket).texts[s.position]?

/-- The text of a symbol, empty for one that is not in use. -/
def text (t : SymbolTable) (s : Symbol) : String :=
  (t.text? s).getD ""

def size (t : SymbolTable) : Nat :=
  t.buckets.toList.foldl (fun n bucket => n + bucket.texts.size) 0

def isEmpty (t : SymbolTable) : Bool :=
  t.size ≤ 1

end SymbolTable
end Shapes

import ArangeTun.Go.Net
import ArangeTun.Go.Quote

/-!
# Reading TOML

The part of TOML that a generated file is written in, read byte by byte. Keys are bare, and a table or a key may be
defined only once.
-/

namespace Toml

open Go

inductive Value
  | str (s : Str)
  | int (n : Int)
  | bool (b : Bool)
  | strs (l : List Str)
  deriving DecidableEq

inductive Kind
  | str
  | int
  | bool
  | strs
  deriving DecidableEq

def Value.kind : Value → Kind
  | .str _ => .str
  | .int _ => .int
  | .bool _ => .bool
  | .strs _ => .strs

def Value.zero : Kind → Value
  | .str => .str []
  | .int => .int 0
  | .bool => .bool false
  | .strs => .strs []

/-- The tables that have a header, and the keys that have a value, each with its table. -/
structure Doc where
  tables : List Str := []
  entries : List ((Str × Str) × Value) := []
  deriving DecidableEq

def Doc.lookup (d : Doc) (table key : Str) : Option Value :=
  (d.entries.find? fun e => e.1 = (table, key)).map Prod.snd

inductive Slot
  | value (key : Str)
  | element (key : Str) (items : List Str)
  deriving DecidableEq

inductive Mode
  -- at the beginning of a line
  | line
  | comment
  | header (name : Str)
  | key (name : Str)
  -- between the key and the equals sign
  | equals (key : Str)
  -- before the value
  | value (key : Str)
  -- in a number or a boolean
  | bare (key text : Str)
  | string (slot : Slot) (text : Str)
  -- after a backslash
  | escape (slot : Slot) (text : Str)
  -- in an escape that gives a code point in hexadecimal digits
  | unicode (slot : Slot) (text : Str) (left code : Nat)
  -- in an array, before an element and after one
  | items (key : Str) (items : List Str)
  | comma (key : Str) (items : List Str)
  -- after a header or a value
  | rest
  deriving DecidableEq

structure State where
  mode : Mode := .line
  table : Str := []
  doc : Doc := {}
  deriving DecidableEq

def newline : UInt8 := 0x0a

def Blank (b : UInt8) : Prop := b = byte ' ' ∨ b = byte '\t'

instance (b : UInt8) : Decidable (Blank b) := inferInstanceAs (Decidable (_ ∨ _))

def Control (b : UInt8) : Prop := (b < 0x20 ∧ b ≠ 0x09) ∨ b = 0x7f

instance (b : UInt8) : Decidable (Control b) := inferInstanceAs (Decidable (_ ∨ _))

/-- A byte of a bare key, and of a number or a boolean. -/
def Bare (b : UInt8) : Prop :=
  (byte 'A' ≤ b ∧ b ≤ byte 'Z') ∨ (byte 'a' ≤ b ∧ b ≤ byte 'z') ∨ (byte '0' ≤ b ∧ b ≤ byte '9') ∨ b = byte '_' ∨
    b = byte '-'

instance (b : UInt8) : Decidable (Bare b) := inferInstanceAs (Decidable (_ ∨ _))

def bareValue (text : Str) : Option Value :=
  if text = lit "true" then some (.bool true)
  else if text = lit "false" then some (.bool false)
  else (parseInt text).map .int

namespace State

variable (s : State)

def define (key : Str) (v : Value) (mode : Mode) : Option State :=
  if (s.table, key) ∈ s.doc.entries.map Prod.fst then none
  else some { s with mode := mode, doc := { s.doc with entries := s.doc.entries ++ [((s.table, key), v)] } }

def openTable (name : Str) : Option State :=
  if name ∈ s.doc.tables then none
  else some { mode := .rest, table := name, doc := { s.doc with tables := s.doc.tables ++ [name] } }

def close (slot : Slot) (text : Str) : Option State :=
  match slot with
  | .value key => s.define key (.str text) .rest
  | .element key items => some { s with mode := .comma key (items ++ [text]) }

def stepEscape (slot : Slot) (text : Str) (b : UInt8) : Option State :=
  if b = byte 'b' then some { s with mode := .string slot (text ++ [0x08]) }
  else if b = byte 't' then some { s with mode := .string slot (text ++ [0x09]) }
  else if b = byte 'n' then some { s with mode := .string slot (text ++ [0x0a]) }
  else if b = byte 'f' then some { s with mode := .string slot (text ++ [0x0c]) }
  else if b = byte 'r' then some { s with mode := .string slot (text ++ [0x0d]) }
  else if b = byte '"' then some { s with mode := .string slot (text ++ [b]) }
  else if b = byte '\\' then some { s with mode := .string slot (text ++ [b]) }
  else if b = byte 'u' then some { s with mode := .unicode slot text 4 0 }
  else if b = byte 'U' then some { s with mode := .unicode slot text 8 0 }
  else none

def stepUnicode (slot : Slot) (text : Str) (left code : Nat) (b : UInt8) : Option State :=
  match hexDigit b with
  | none => none
  | some d =>
    let code := 16 * code + d
    if left ≤ 1 then
      if code.isValidChar then some { s with mode := .string slot (text ++ encodeRune (Char.ofNat code)) } else none
    else some { s with mode := .unicode slot text (left - 1) code }

def endBare (key text : Str) (mode : Mode) : Option State := (bareValue text).bind fun v => s.define key v mode

def step (b : UInt8) : Option State :=
  match s.mode with
  | .line =>
    if b = newline ∨ Blank b then some s
    else if b = byte '#' then some { s with mode := .comment }
    else if b = byte '[' then some { s with mode := .header [] }
    else if Bare b then some { s with mode := .key [b] }
    else none
  | .comment =>
    if b = newline then some { s with mode := .line }
    else if Control b then none
    else some s
  | .header name =>
    if Bare b then some { s with mode := .header (name ++ [b]) }
    else if b = byte ']' ∧ name ≠ [] then s.openTable name
    else none
  | .key name =>
    if Bare b then some { s with mode := .key (name ++ [b]) }
    else if Blank b then some { s with mode := .equals name }
    else if b = byte '=' then some { s with mode := .value name }
    else none
  | .equals key =>
    if Blank b then some s
    else if b = byte '=' then some { s with mode := .value key }
    else none
  | .value key =>
    if Blank b then some s
    else if b = byte '"' then some { s with mode := .string (.value key) [] }
    else if b = byte '[' then some { s with mode := .items key [] }
    else if Bare b ∨ b = byte '+' then some { s with mode := .bare key [b] }
    else none
  | .bare key text =>
    if Bare b then some { s with mode := .bare key (text ++ [b]) }
    else if b = newline then s.endBare key text .line
    else if Blank b then s.endBare key text .rest
    else if b = byte '#' then s.endBare key text .comment
    else none
  | .string slot text =>
    if b = byte '"' then s.close slot text
    else if b = byte '\\' then some { s with mode := .escape slot text }
    else if Control b then none
    else some { s with mode := .string slot (text ++ [b]) }
  | .escape slot text => s.stepEscape slot text b
  | .unicode slot text left code => s.stepUnicode slot text left code b
  | .items key items =>
    if b = newline ∨ Blank b then some s
    else if b = byte '"' then some { s with mode := .string (.element key items) [] }
    else if b = byte ']' then s.define key (.strs items) .rest
    else none
  | .comma key items =>
    if b = newline ∨ Blank b then some s
    else if b = byte ',' then some { s with mode := .items key items }
    else if b = byte ']' then s.define key (.strs items) .rest
    else none
  | .rest =>
    if Blank b then some s
    else if b = newline then some { s with mode := .line }
    else if b = byte '#' then some { s with mode := .comment }
    else none

def run : State → Str → Option State
  | s, [] => some s
  | s, b :: bs => (s.step b).bind (run · bs)

def finish : Option Doc :=
  match s.mode with
  | .line | .comment | .rest => some s.doc
  | .bare key text => (s.endBare key text .rest).map (·.doc)
  | _ => none

end State

def parse (file : Str) : Option Doc := (({} : State).run file).bind State.finish

end Toml

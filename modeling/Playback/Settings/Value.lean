/-!
# Values of a configuration

A configuration is a tree of values. Integers and decimals are told apart, since a field that
counts something takes integers only. A record is written as a table of named entries or as a list
of its values in the order of its fields; in both cases what is missing takes its default
(`Setting.record`, `Setting.field`). The readers `readBool`, `readNatural`, `readFloat`,
`readOptional` and `readChoice` accept exactly the values of their type.
-/

namespace Playback

/-- One value of a configuration. -/
inductive Setting where
  | null
  | bool (value : Bool)
  | integer (value : Int)
  | decimal (value : Float)
  | text (value : String)
  | list (items : List Setting)
  /-- Named entries, each name once. -/
  | table (entries : List (String × Setting))
  deriving Inhabited

namespace Setting

/-- Reads a truth value. -/
def readBool : Setting → Option Bool
  | bool b => some b
  | _ => none

/-- Reads an integer from zero to `bound`. -/
def readNatural (bound : Nat) : Setting → Option Nat
  | integer n => if 0 ≤ n ∧ n ≤ bound then some n.toNat else none
  | _ => none

/-- Reads a number, written with or without a point. -/
def readFloat : Setting → Option Float
  | integer n => some (Float.ofInt n)
  | decimal x => some x
  | _ => none

/-- Reads what may be absent: the null value, or what `read` accepts. -/
def readOptional {α : Type} (read : Setting → Option α) : Setting → Option (Option α)
  | null => some none
  | s => (read s).map some

/-- Reads one of the given names, as a text or as the name of a single null entry. -/
def readChoice {α : Type} (choices : List (String × α)) : Setting → Option α
  | text name => choices.lookup name
  | table [(name, null)] => choices.lookup name
  | _ => none

/-- The named entries of a record with the given fields. A list stands for the values of the
first fields; it must not be longer than they are. -/
def record (fields : List String) : Setting → Option (List (String × Setting))
  | table entries => some entries
  | list items => if items.length ≤ fields.length then some (fields.zip items) else none
  | _ => none

/-- Reads the entry `name`, or takes the default if there is none. -/
def field {α : Type} (entries : List (String × Setting)) (name : String) (default : α)
    (read : Setting → Option α) : Option α :=
  match entries.lookup name with
  | none => some default
  | some s => read s

end Setting

end Playback

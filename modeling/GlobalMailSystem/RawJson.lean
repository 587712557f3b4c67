import Mathlib.Data.List.Induction
import Mathlib.Data.List.Nodup
import Mathlib.Data.List.Sort
import Mathlib.Tactic

/-!
Decoding of JSON text into Go values, as `encoding/json` and `strconv` do it: `null` decodes into
the zero value of every target, a number with a fraction or an exponent into no integer type.
-/

namespace GlobalMailSystem

inductive Json
  | null
  | bool (b : Bool)
  | int (n : Int)
  | frac (literal : String)
  | str (s : String)
  | arr (items : List Json)
  | obj (fields : List (String × Json))

inductive RawMessage
  | empty
  | malformed (text : String)
  | value (v : Json)

def RawMessage.storable : RawMessage → Bool
  | .malformed _ => false
  | _ => true

namespace RawJson

def inInt64 (n : Int) : Bool := -9223372036854775808 ≤ n && n ≤ 9223372036854775807

def decodeInt : Json → Option Int
  | .null => some 0
  | .int n => if inInt64 n then some n else none
  | _ => none

def decodeString : Json → Option String
  | .null => some ""
  | .str s => some s
  | _ => none

def decodeSlice {α : Type} (decode : Json → Option α) : Json → Option (List α)
  | .null => some []
  | .arr items => items.mapM decode
  | _ => none

def unmarshal {α : Type} (decode : Json → Option α) : RawMessage → Option α
  | .value v => decode v
  | _ => none

def unmarshalInt (raw : RawMessage) : Option Int := unmarshal decodeInt raw
def unmarshalInts (raw : RawMessage) : Option (List Int) := unmarshal (decodeSlice decodeInt) raw
def unmarshalString (raw : RawMessage) : Option String := unmarshal decodeString raw
def unmarshalStrings (raw : RawMessage) : Option (List String) :=
  unmarshal (decodeSlice decodeString) raw
def unmarshalItems (raw : RawMessage) : Option (List RawMessage) :=
  unmarshal (decodeSlice fun v => some (.value v)) raw

def digitsValue (acc : Nat) : List Char → Option Nat
  | [] => some acc
  | c :: cs => if c.isDigit then digitsValue (10 * acc + (c.toNat - '0'.toNat)) cs else none

def digits : List Char → Option Nat
  | [] => none
  | c :: cs => digitsValue 0 (c :: cs)

def parseInt (s : String) : Option Int :=
  let value : Option Int := match s.toList with
    | '-' :: cs => (digits cs).map fun n => -(n : Int)
    | '+' :: cs => (digits cs).map Int.ofNat
    | cs => (digits cs).map Int.ofNat
  value.filter inInt64

theorem unmarshalItems_array (items : List Json) :
    unmarshalItems (.value (.arr items)) = some (items.map RawMessage.value) := by
  simp only [unmarshalItems, unmarshal, decodeSlice]
  induction items with
  | nil => rfl
  | cons v items ih => simp [List.mapM_cons, ih]

end RawJson

end GlobalMailSystem

import Mathlib.Algebra.Order.BigOperators.Group.List
import Abyssal.Base.Bytes

/-! Values as a compact JSON writer prints them. -/

namespace Abyssal

open List

inductive Json
  | null
  | bool (b : Bool)
  | number (n : Nat)
  | string (text : List UInt8)
  | array (items : List Json)
  | object (fields : List (List UInt8 × Json))

def decimal (n : Nat) : List UInt8 := (Nat.toDigits 10 n).map fun c => UInt8.ofNat c.toNat

def hexDigit (n : UInt8) : UInt8 := if n < 10 then 48 + n else 87 + n

def escapeByte (b : UInt8) : List UInt8 :=
  if b = 34 then [92, 34]
  else if b = 92 then [92, 92]
  else if b = 8 then [92, 98]
  else if b = 9 then [92, 116]
  else if b = 10 then [92, 110]
  else if b = 12 then [92, 102]
  else if b = 13 then [92, 114]
  else if b < 32 then [92, 117, 48, 48, hexDigit (b / 16), hexDigit (b % 16)]
  else [b]

def stringLiteral (text : List UInt8) : List UInt8 := 34 :: (text.flatMap escapeByte ++ [34])

namespace Json

mutual

def render : Json → List UInt8
  | .null => ascii "null"
  | .bool b => if b then ascii "true" else ascii "false"
  | .number n => decimal n
  | .string text => stringLiteral text
  | .array items => 91 :: (renderItems items ++ [93])
  | .object fields => 123 :: (renderFields fields ++ [125])

def renderItems : List Json → List UInt8
  | [] => []
  | [item] => item.render
  | item :: items => item.render ++ 44 :: renderItems items

def renderFields : List (List UInt8 × Json) → List UInt8
  | [] => []
  | [(name, value)] => stringLiteral name ++ 58 :: value.render
  | (name, value) :: fields => stringLiteral name ++ 58 :: value.render ++ 44 :: renderFields fields

end

def asObject : Json → Option (List (List UInt8 × Json))
  | .object fields => some fields
  | _ => none

def hasKey (name : List UInt8) (fields : List (List UInt8 × Json)) : Bool :=
  fields.any (·.1 = name)

theorem render_object_eq (fields : List (List UInt8 × Json)) :
    render (.object fields) = 123 :: renderFields fields ++ [125] := by
  rw [render]
  rfl

def joined (ns : List Nat) : Nat := ns.sum + (ns.length - 1)

theorem joined_cons_cons (a b : Nat) (ns : List Nat) :
    joined (a :: b :: ns) = a + (1 + joined (b :: ns)) := by
  simp only [joined, sum_cons, length_cons]
  omega

theorem le_joined {n : Nat} {ns : List Nat} (h : n ∈ ns) : n ≤ joined ns :=
  (le_sum_of_mem h).trans (Nat.le_add_right ..)

def fieldLength (field : List UInt8 × Json) : Nat :=
  (stringLiteral field.1).length + 1 + field.2.render.length

theorem length_renderItems (items : List Json) :
    (renderItems items).length = joined (items.map fun item => item.render.length) := by
  induction items with
  | nil => simp [renderItems, joined]
  | cons item items ih =>
    cases items with
    | nil => simp [renderItems, joined]
    | cons next items =>
      rw [map_cons] at ih ⊢
      rw [map_cons, joined_cons_cons, ← ih]
      simp only [renderItems, length_append, length_cons]
      omega

theorem length_renderFields (fields : List (List UInt8 × Json)) :
    (renderFields fields).length = joined (fields.map fieldLength) := by
  induction fields with
  | nil => simp [renderFields, joined]
  | cons field fields ih =>
    cases fields with
    | nil =>
      simp only [renderFields, joined, fieldLength, length_append, length_cons, map_cons,
        map_nil, sum_cons, sum_nil, length_nil]
      omega
    | cons next fields =>
      rw [map_cons, map_cons, joined_cons_cons, ← map_cons, ← ih]
      simp only [renderFields, fieldLength, length_append, length_cons]
      omega

theorem length_render_array (items : List Json) : (render (.array items)).length =
    2 + joined (items.map fun item => item.render.length) := by
  rw [render, length_cons, length_append, length_renderItems, length_singleton]
  omega

theorem length_render_object (fields : List (List UInt8 × Json)) :
    (render (.object fields)).length = 2 + joined (fields.map fieldLength) := by
  rw [render, length_cons, length_append, length_renderFields, length_singleton]
  omega

end Json

theorem stringLiteral_replicate (n : Nat) {b : UInt8} (hb : escapeByte b = [b]) :
    (stringLiteral (List.replicate n b)).length = n + 2 := by
  have hflat : (List.replicate n b).flatMap escapeByte = List.replicate n b := by
    induction n with
    | zero => rfl
    | succ n ih => rw [replicate_succ, flatMap_cons, hb, ih]; rfl
  rw [stringLiteral, hflat, length_cons, length_append, length_replicate]
  rfl

end Abyssal

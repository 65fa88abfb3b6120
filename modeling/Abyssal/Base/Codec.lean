import Mathlib.Data.UInt

/-! Encodings as bytes that can be read back from the front of a longer byte string. -/

namespace Abyssal

open List Option

structure Codec (α : Type) where
  encode : α → List UInt8
  decode : List UInt8 → Option (α × List UInt8)
  decode_encode : ∀ a rest, decode (encode a ++ rest) = some (a, rest)

namespace Codec

variable {α β : Type}

def byte : Codec UInt8 where
  encode b := [b]
  decode
    | [] => none
    | b :: rest => some (b, rest)
  decode_encode _ _ := rfl

def unit : Codec Unit where
  encode _ := []
  decode bytes := some ((), bytes)
  decode_encode _ _ := rfl

def pair (a : Codec α) (b : Codec β) : Codec (α × β) where
  encode v := a.encode v.1 ++ b.encode v.2
  decode bytes := (a.decode bytes).bind fun x =>
    (b.decode x.2).map fun y => ((x.1, y.1), y.2)
  decode_encode v rest := by
    rw [append_assoc, a.decode_encode, bind_some, b.decode_encode, map_some]

def via (a : Codec α) (view : β → α) (build : α → β) (h : ∀ v, build (view v) = v) : Codec β where
  encode v := a.encode (view v)
  decode bytes := (a.decode bytes).map fun x => (build x.1, x.2)
  decode_encode v rest := by rw [a.decode_encode, map_some, h]

def encodeList (a : Codec α) : List α → List UInt8
  | [] => [0]
  | x :: xs => 1 :: a.encode x ++ encodeList a xs

def decodeList (a : Codec α) : Nat → List UInt8 → Option (List α × List UInt8)
  -- No more elements than `fuel`.
  | 0, _ => none
  | _, [] => none
  | fuel + 1, tag :: bytes =>
    if tag = 0 then some ([], bytes)
    else (a.decode bytes).bind fun x =>
      (decodeList a fuel x.2).map fun xs => (x.1 :: xs.1, xs.2)

theorem length_lt_encodeList (a : Codec α) (xs : List α) :
    xs.length < (encodeList a xs).length := by
  induction xs with
  | nil => exact Nat.one_pos
  | cons x xs ih =>
    rw [encodeList, cons_append, length_cons, length_cons, length_append]
    omega

theorem decodeList_encodeList (a : Codec α) (xs : List α) (rest : List UInt8) {fuel : Nat}
    (h : xs.length < fuel) : decodeList a fuel (encodeList a xs ++ rest) = some (xs, rest) := by
  induction xs generalizing fuel with
  | nil =>
    obtain ⟨fuel, rfl⟩ : ∃ n, fuel = n + 1 := ⟨fuel - 1, by omega⟩
    rfl
  | cons x xs ih =>
    obtain ⟨fuel, rfl⟩ : ∃ n, fuel = n + 1 := ⟨fuel - 1, by omega⟩
    have hshort : xs.length < fuel := Nat.succ_lt_succ_iff.mp h
    rw [encodeList, cons_append, cons_append, append_assoc, decodeList,
      if_neg (by decide), a.decode_encode, bind_some, ih hshort, map_some]

def list (a : Codec α) : Codec (List α) where
  encode := encodeList a
  decode bytes := decodeList a bytes.length bytes
  decode_encode xs rest := by
    refine decodeList_encodeList a xs rest ?_
    rw [length_append]
    exact Nat.lt_add_right _ (length_lt_encodeList a xs)

def nat : Codec Nat :=
  (list unit).via (fun n => List.replicate n ()) List.length fun _ => length_replicate

def bytes : Codec (List UInt8) := list byte

def read (a : Codec α) (bytes : List UInt8) : Option α := (a.decode bytes).map Prod.fst

theorem read_encode (a : Codec α) (x : α) : a.read (a.encode x) = some x := by
  have h := a.decode_encode x []
  rw [append_nil] at h
  rw [read, h, map_some]

end Codec
end Abyssal

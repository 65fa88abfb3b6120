import Mathlib.Data.List.Range
import Mathlib.Data.UInt

/-! An ideal authenticated cipher. What was ever encrypted is kept in a log, and a ciphertext decrypts
only if it stands in the log under the same key, nonce and associated data. When the nonces of a key
count its encryptions, decryption at a nonce reads the one entry with that number. -/

namespace Abyssal

open List

structure Cipher (Key : Type) (tagBytes : Nat) where
  encrypt : Key → List UInt8 → List UInt8 → List UInt8 → List UInt8
  length_encrypt : ∀ key nonce aad plaintext,
    (encrypt key nonce aad plaintext).length = plaintext.length + tagBytes

/-- Keys from a salt, a secret and an info string, no two inputs with the same key. -/
structure KeyDerivation (Key : Type) where
  expand : List UInt8 → List UInt8 → List UInt8 → Key
  collision_free : ∀ {salt secret info salt' secret' info'},
    expand salt secret info = expand salt' secret' info' →
      salt = salt' ∧ secret = secret' ∧ info = info'

def KeyDerivation.free : KeyDerivation (List UInt8 × List UInt8 × List UInt8) where
  expand salt secret info := (salt, secret, info)
  collision_free h := by simpa using h

def Cipher.clear (Key : Type) (tagBytes : Nat) : Cipher Key tagBytes where
  encrypt _ _ _ plaintext := plaintext ++ List.replicate tagBytes 0
  length_encrypt _ _ _ _ := by rw [length_append, length_replicate]

structure Encryption (Key : Type) where
  key : Key
  nonce : List UInt8
  aad : List UInt8
  plaintext : List UInt8
  ciphertext : List UInt8
  deriving DecidableEq

def Cipher.call {Key : Type} {tagBytes : Nat} (cipher : Cipher Key tagBytes) (key : Key)
    (nonce aad plaintext : List UInt8) : Encryption Key :=
  ⟨key, nonce, aad, plaintext, cipher.encrypt key nonce aad plaintext⟩

namespace Aead

variable {Key : Type} {log entries : List (Encryption Key)} {key : Key}
  {nonce aad plaintext ciphertext : List UInt8}

section

variable [DecidableEq Key] {e : Encryption Key}

def decrypt (log : List (Encryption Key)) (key : Key) (nonce aad ciphertext : List UInt8) :
    Option (List UInt8) :=
  (log.find? fun e => e.key = key ∧ e.nonce = nonce ∧ e.aad = aad ∧ e.ciphertext = ciphertext).map
    (·.plaintext)

def under (key : Key) (log : List (Encryption Key)) : List (Encryption Key) :=
  log.filter (·.key = key)

theorem mem_under : e ∈ under key log ↔ e ∈ log ∧ e.key = key := by
  simp [under]

theorem under_append (log log' : List (Encryption Key)) :
    under key (log ++ log') = under key log ++ under key log' := filter_append ..

theorem under_snoc_self (log : List (Encryption Key)) (h : e.key = key) :
    under key (log ++ [e]) = under key log ++ [e] := by
  rw [under_append, under, under, filter_singleton, decide_eq_true h]
  rfl

theorem under_snoc_of_ne (log : List (Encryption Key)) (h : e.key ≠ key) :
    under key (log ++ [e]) = under key log := by
  rw [under_append, under, under, filter_singleton, decide_eq_false h]
  exact append_nil _

theorem mem_of_decrypt (h : decrypt log key nonce aad ciphertext = some plaintext) :
    ⟨key, nonce, aad, plaintext, ciphertext⟩ ∈ under key log := by
  obtain ⟨e, hfind, rfl⟩ := Option.map_eq_some_iff.mp h
  have hmem := mem_of_find?_eq_some hfind
  have hsame := find?_some hfind
  rw [decide_eq_true_iff] at hsame
  obtain ⟨rfl, rfl, rfl, rfl⟩ := hsame
  exact mem_under.mpr ⟨hmem, rfl⟩

theorem exists_decrypt (h : ⟨key, nonce, aad, plaintext, ciphertext⟩ ∈ under key log) :
    ∃ plaintext', decrypt log key nonce aad ciphertext = some plaintext' := by
  cases hfind : log.find? fun e =>
      e.key = key ∧ e.nonce = nonce ∧ e.aad = aad ∧ e.ciphertext = ciphertext with
  | none =>
    have hnone := find?_eq_none.mp hfind _ (mem_under.mp h).1
    simp at hnone
  | some e => exact ⟨e.plaintext, by rw [decrypt, hfind]; rfl⟩

end

def Numbered (nonceOf : Nat → List UInt8) (entries : List (Encryption Key)) : Prop :=
  entries.map (·.nonce) = (List.range entries.length).map nonceOf

variable {nonceOf : Nat → List UInt8}

theorem numbered_nil : Numbered nonceOf ([] : List (Encryption Key)) := rfl

theorem Numbered.snoc (h : Numbered nonceOf entries) {e : Encryption Key}
    (he : e.nonce = nonceOf entries.length) : Numbered nonceOf (entries ++ [e]) := by
  rw [Numbered, map_append, h, length_append, length_singleton, range_succ,
    map_append, map_singleton, map_singleton, he]

theorem Numbered.nonce_getElem (h : Numbered nonceOf entries) {i : Nat} {e : Encryption Key}
    (he : entries[i]? = some e) : e.nonce = nonceOf i := by
  have hlt := (List.getElem?_eq_some_iff.mp he).1
  have hmap : (entries.map (·.nonce))[i]? = some e.nonce := by rw [getElem?_map, he]; rfl
  rw [h, getElem?_map, getElem?_range hlt] at hmap
  exact (Option.some.inj hmap).symm

theorem Numbered.nodup (h : Numbered nonceOf entries) {limit : Nat} (hle : entries.length ≤ limit)
    (hinj : ∀ i < limit, ∀ j < limit, nonceOf i = nonceOf j → i = j) :
    (entries.map (·.nonce)).Nodup := by
  rw [h]
  refine List.Nodup.map_on (fun i hi j hj => ?_) nodup_range
  exact hinj i ((mem_range.mp hi).trans_le hle) j ((mem_range.mp hj).trans_le hle)

theorem decrypt_numbered [DecidableEq Key] {limit : Nat} (h : Numbered nonceOf (under key log))
    (hle : (under key log).length ≤ limit)
    (hinj : ∀ i < limit, ∀ j < limit, nonceOf i = nonceOf j → i = j) {i : Nat} (hi : i < limit) :
    decrypt log key (nonceOf i) aad ciphertext = some plaintext ↔
      (under key log)[i]? = some ⟨key, nonceOf i, aad, plaintext, ciphertext⟩ := by
  have hread : ∀ {p}, decrypt log key (nonceOf i) aad ciphertext = some p →
      (under key log)[i]? = some ⟨key, nonceOf i, aad, p, ciphertext⟩ := by
    intro p hp
    obtain ⟨j, hj⟩ := getElem?_of_mem (mem_of_decrypt hp)
    have hlt := (List.getElem?_eq_some_iff.mp hj).1
    obtain rfl := hinj i hi j (hlt.trans_le hle) (h.nonce_getElem hj)
    exact hj
  refine ⟨hread, fun hentry => ?_⟩
  obtain ⟨p, hp⟩ := exists_decrypt (mem_of_getElem? hentry)
  have hsame := (hread hp).symm.trans hentry
  exact hp.trans (congrArg some (congrArg Encryption.plaintext (Option.some.inj hsame)))

end Aead

end Abyssal

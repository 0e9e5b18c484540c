import Mathlib.Data.List.Basic

/-!
# Base64, as Python's `base64` module computes it

The signer (`sign.py`) encodes a signature with `base64.b64encode`, the gate decodes it with
`base64.b64decode`, and `encode_id` encodes an identifier with `base64.urlsafe_b64encode`. All
three go through `binascii`: `b2aBase64` is `b2a_base64`, which writes four letters for every
three bytes and pads the last group with `=`, and `a2bBase64Loop` is the loop of `a2b_base64` in
its default, non-strict mode, which skips bytes outside the alphabet and stops at the padding
that ends a group.

`a2bBase64Loop_b2aBase64` is the round trip: decoding what `b2aBase64` wrote gives the bytes
back. The shifts and masks of the C code are written as the arithmetic they compute on six-bit
values: a bitwise or of disjoint bit ranges is a sum.
-/

namespace TwinExporter

/-- The standard alphabet of RFC 4648, indexed by a six-bit value. -/
def tableB2a : List Char :=
  "ABCDEFGHIJKLMNOPQRSTUVWXYZabcdefghijklmnopqrstuvwxyz0123456789+/".toList

/-- The letter of a six-bit value. -/
def sextet (i : Nat) : Char := tableB2a.getD i '='

/-- `table_a2b_base64`: the six-bit value of a letter of the standard alphabet, `none` for every
other character. -/
def tableA2b (c : Char) : Option Nat :=
  if 'A' ≤ c ∧ c ≤ 'Z' then some (c.toNat - 65)
  else if 'a' ≤ c ∧ c ≤ 'z' then some (c.toNat - 71)
  else if '0' ≤ c ∧ c ≤ '9' then some (c.toNat + 4)
  else if c = '+' then some 62
  else if c = '/' then some 63
  else none

/-- `binascii.b2a_base64(s, newline=False)`: four letters for each group of three bytes, and the
last group of one or two bytes padded with `=` to four. -/
def b2aBase64 : List UInt8 → List Char
  | [] => []
  | [a] => [sextet (a.toNat / 4), sextet (a.toNat % 4 * 16), '=', '=']
  | [a, b] =>
    [sextet (a.toNat / 4), sextet (a.toNat % 4 * 16 + b.toNat / 16), sextet (b.toNat % 16 * 4),
      '=']
  | a :: b :: c :: rest =>
    sextet (a.toNat / 4) :: sextet (a.toNat % 4 * 16 + b.toNat / 16) ::
      sextet (b.toNat % 16 * 4 + c.toNat / 64) :: sextet (c.toNat % 64) :: b2aBase64 rest

/-- `base64.b64encode(s).decode()`. -/
def b64encode (s : List UInt8) : String := ⟨b2aBase64 s⟩

/-- The state of the loop of `a2b_base64`: where the next letter falls in its group of four, the
bits of the last letter that the next byte still needs (`leftchar`), the `=` counted since the
last letter (`pads`), and the bytes written so far. -/
structure A2bState where
  /-- `quad_pos`. -/
  quadPos : Fin 4
  /-- `leftchar`. -/
  leftchar : Nat
  /-- `pads`. -/
  pads : Nat
  /-- The bytes written. -/
  out : List UInt8

/-- The state before the first letter. -/
def A2bState.init : A2bState := ⟨0, 0, 0, []⟩

/-- One letter of value `v` (below 64) enters the current group; every letter after the first of
a group completes a byte. -/
def A2bState.push (st : A2bState) (v : Nat) : A2bState :=
  match st.quadPos with
  | 0 => { st with quadPos := 1, leftchar := v }
  | 1 => { st with quadPos := 2, leftchar := v % 16,
                   out := st.out ++ [UInt8.ofNat (st.leftchar * 4 + v / 16)] }
  | 2 => { st with quadPos := 3, leftchar := v % 4,
                   out := st.out ++ [UInt8.ofNat (st.leftchar * 16 + v / 4)] }
  | 3 => { st with quadPos := 0, leftchar := 0,
                   out := st.out ++ [UInt8.ofNat (st.leftchar * 64 + v)] }

/-- The loop of `binascii.a2b_base64` with `strict_mode=False`. A `=` counts towards the padding
only from the third letter of a group on, and ends the input once it completes the group; a
character outside the alphabet is skipped; a letter resets the padding count. At the end, an
unfinished group raises `binascii.Error` (`none`). -/
def a2bBase64Loop : List Char → A2bState → Option (List UInt8)
  | [], st => if st.quadPos = 0 then some st.out else none
  | c :: cs, st =>
    if c = '=' then
      if 2 ≤ st.quadPos.val then
        if 4 ≤ st.quadPos.val + (st.pads + 1) then some st.out
        else a2bBase64Loop cs { st with pads := st.pads + 1 }
      else a2bBase64Loop cs st
    else
      match tableA2b c with
      | none => a2bBase64Loop cs st
      | some v => a2bBase64Loop cs ({ st with pads := 0 }.push v)

/-- `base64.b64decode(s)` on a `str`: a string with a character outside ASCII raises
`ValueError`, and the rest is `a2b_base64` on its bytes. -/
def b64decode (s : String) : Option (List UInt8) :=
  if s.toList.all (·.toNat < 128) then a2bBase64Loop s.toList .init else none

/-! ## The round trip -/

/-- Every six-bit value has a letter, which decodes back to it. -/
theorem tableA2b_sextet : ∀ i : Fin 64, tableA2b (sextet i) = some i := by decide

/-- The letter of a six-bit value is not the pad `=`. -/
theorem sextet_ne_pad : ∀ i : Fin 64, sextet i ≠ '=' := by decide

/-- Every letter that `b2aBase64` writes is ASCII. -/
theorem sextet_lt : ∀ i : Fin 64, (sextet i).toNat < 128 := by decide

/-- A byte is the `UInt8` of its value. -/
theorem ofNat_eq_of_toNat {n : Nat} {a : UInt8} (h : n = a.toNat) : UInt8.ofNat n = a :=
  UInt8.toNat.inj (by rw [UInt8.toNat_ofNat_of_lt (h ▸ a.toNat_lt_size), h])

/-- A letter of value `i` below 64, not the first of its group, goes through `push`. -/
theorem a2bBase64Loop_sextet (i : Nat) (hi : i < 64) (cs : List Char) (st : A2bState) :
    a2bBase64Loop (sextet i :: cs) st = a2bBase64Loop cs ({ st with pads := 0 }.push i) := by
  have h1 := sextet_ne_pad ⟨i, hi⟩
  have h2 := tableA2b_sextet ⟨i, hi⟩
  simp only at h1 h2
  simp [a2bBase64Loop, h1, h2]

/-- Decoding what `b2aBase64` writes, from the start of a group, appends the encoded bytes. -/
theorem a2bBase64Loop_b2aBase64 (bs : List UInt8) (st : A2bState) (hq : st.quadPos = 0) :
    a2bBase64Loop (b2aBase64 bs) st = some (st.out ++ bs) := by
  obtain ⟨q, l, p, out⟩ := st
  simp only at hq
  subst hq
  induction bs using b2aBase64.induct generalizing l p out with
  | case1 => simp [b2aBase64, a2bBase64Loop]
  | case2 a =>
    have ha : a.toNat < 256 := a.toNat_lt_size
    simp only [b2aBase64]
    rw [a2bBase64Loop_sextet _ (by omega), a2bBase64Loop_sextet _ (by omega)]
    simp [A2bState.push, a2bBase64Loop]
    exact ofNat_eq_of_toNat (by omega)
  | case3 a b =>
    have ha : a.toNat < 256 := a.toNat_lt_size
    have hb : b.toNat < 256 := b.toNat_lt_size
    simp only [b2aBase64]
    rw [a2bBase64Loop_sextet _ (by omega), a2bBase64Loop_sextet _ (by omega),
      a2bBase64Loop_sextet _ (by omega)]
    simp [A2bState.push, a2bBase64Loop]
    exact ⟨by decide, by decide, ofNat_eq_of_toNat (by omega), ofNat_eq_of_toNat (by omega)⟩
  | case4 a b c rest ih =>
    have ha : a.toNat < 256 := a.toNat_lt_size
    have hb : b.toNat < 256 := b.toNat_lt_size
    have hc : c.toNat < 256 := c.toNat_lt_size
    simp only [b2aBase64]
    rw [a2bBase64Loop_sextet _ (by omega), a2bBase64Loop_sextet _ (by omega),
      a2bBase64Loop_sextet _ (by omega), a2bBase64Loop_sextet _ (by omega)]
    simp only [A2bState.push]
    rw [ih]
    simp only [List.append_assoc, List.singleton_append]
    rw [ofNat_eq_of_toNat (a := a) ?_, ofNat_eq_of_toNat (a := b) ?_,
      ofNat_eq_of_toNat (a := c) ?_]
    · rfl
    all_goals omega

/-- A property of every letter and of the pad holds of every character that `b2aBase64`
writes. -/
theorem b2aBase64_forall (P : Char → Prop) (hs : ∀ i : Fin 64, P (sextet i)) (hp : P '=')
    (bs : List UInt8) : ∀ c ∈ b2aBase64 bs, P c := by
  induction bs using b2aBase64.induct with
  | case1 => simp [b2aBase64]
  | case2 a =>
    have ha : a.toNat < 256 := a.toNat_lt_size
    simp only [b2aBase64, List.mem_cons, List.not_mem_nil, or_false]
    rintro x (rfl | rfl | rfl | rfl)
    · exact hs ⟨_, (by omega : a.toNat / 4 < 64)⟩
    · exact hs ⟨_, (by omega : a.toNat % 4 * 16 < 64)⟩
    all_goals exact hp
  | case3 a b =>
    have ha : a.toNat < 256 := a.toNat_lt_size
    have hb : b.toNat < 256 := b.toNat_lt_size
    simp only [b2aBase64, List.mem_cons, List.not_mem_nil, or_false]
    rintro x (rfl | rfl | rfl | rfl)
    · exact hs ⟨_, (by omega : a.toNat / 4 < 64)⟩
    · exact hs ⟨_, (by omega : a.toNat % 4 * 16 + b.toNat / 16 < 64)⟩
    · exact hs ⟨_, (by omega : b.toNat % 16 * 4 < 64)⟩
    · exact hp
  | case4 a b c rest ih =>
    have ha : a.toNat < 256 := a.toNat_lt_size
    have hb : b.toNat < 256 := b.toNat_lt_size
    have hc : c.toNat < 256 := c.toNat_lt_size
    simp only [b2aBase64, List.mem_cons]
    rintro x (rfl | rfl | rfl | rfl | hx)
    · exact hs ⟨_, (by omega : a.toNat / 4 < 64)⟩
    · exact hs ⟨_, (by omega : a.toNat % 4 * 16 + b.toNat / 16 < 64)⟩
    · exact hs ⟨_, (by omega : b.toNat % 16 * 4 + c.toNat / 64 < 64)⟩
    · exact hs ⟨_, (by omega : c.toNat % 64 < 64)⟩
    · exact ih x hx

/-- Every character that `b2aBase64` writes is ASCII. -/
theorem b2aBase64_ascii (bs : List UInt8) : ∀ c ∈ b2aBase64 bs, c.toNat < 128 :=
  b2aBase64_forall _ sextet_lt (by decide) bs

/-- `b64decode` undoes `b64encode`, for every byte string. -/
theorem b64decode_b64encode (bs : List UInt8) : b64decode (b64encode bs) = some bs := by
  have hall : (b2aBase64 bs).all (·.toNat < 128) = true := by
    simpa using b2aBase64_ascii bs
  simp only [b64decode, b64encode, String.toList, hall, if_true]
  simpa using a2bBase64Loop_b2aBase64 bs .init rfl

end TwinExporter

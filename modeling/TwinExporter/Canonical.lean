import Mathlib.Data.List.Sort
import Mathlib.Data.String.Basic
import TwinExporter.Codec
import TwinExporter.Dumps

/-!
# The text of `json.dumps(..., sort_keys=True)` determines the mapping

The signer and the gate sign and check the text of `json.dumps(payload, sort_keys=True)`. Two
loadable values (what `json.loads` returns: dictionaries with distinct keys, and floats written as
CPython's `repr` writes them) have the same text exactly when they are the same up to the order of
the entries of their dictionaries, at any depth (`dumps_eq_iff`).

One direction is insertion-order invariance: sorting two permutations of entries with distinct
keys gives one list (`sortItems_eq_of_perm`), so `canon` maps reordered values to one value. The
other is that the printer can be read back. A string is a prefix code of escape units, which
`readEscape` reads one at a time (`readEscape_escapeChar`), closed by `"`; a number is a maximal
run of number characters; every other value opens with a character of its own (`leadKind`). So a
value's text, followed by a delimiter, determines the value and what follows
(`encode_append_inj`).
-/

namespace TwinExporter

/-! ## Number texts -/

/-- The characters of a number's text: digits, signs, the point, `e`, and the letters of `NaN`
and `Infinity`. -/
def numberChars : List Char := "0123456789+-.eNaIfinty".toList

/-- A float's `repr` as CPython writes it: `nan`, `inf`, `-inf`, or a run of digits, signs, points
and `e`s with a point or an exponent. -/
def floatText (r : String) : Bool :=
  r == "nan" || r == "inf" || r == "-inf" ||
    (r.toList.all ("0123456789+-.e".toList.contains ·) &&
      (r.toList.contains '.' || r.toList.contains 'e'))

/-- A decimal digit's character is `'0'` plus the digit. -/
theorem digitChar_toNat : ∀ d : Fin 10, (digitChar d).toNat = 48 + d := by decide

/-- The number that a run of decimal digits writes, most significant first. -/
def readDigits (cs : List Char) : Nat := cs.foldl (fun n c => 10 * n + (c.toNat - 48)) 0

/-- Reading back the digits of a number, most significant first, gives the number. -/
theorem readDigits_reverse_digits :
    ∀ L : List Nat, (∀ d ∈ L, d < 10) → readDigits (L.reverse.map digitChar) = Nat.ofDigits 10 L
  | [], _ => rfl
  | d :: L, h => by
    have hd : (digitChar d).toNat = 48 + d := digitChar_toNat ⟨d, h d (List.mem_cons_self _ _)⟩
    have ih := readDigits_reverse_digits L fun d' h' => h d' (List.mem_cons_of_mem _ h')
    simp only [readDigits] at ih ⊢
    simp only [List.reverse_cons, List.map_append, List.foldl_append, ih, List.map_cons,
      List.map_nil, List.foldl_cons, List.foldl_nil, hd, Nat.ofDigits_cons]
    omega

/-- `int.__repr__` of a natural number is read back. -/
theorem readDigits_natRepr (m : Nat) : readDigits (natRepr m) = m := by
  unfold natRepr
  split_ifs with hm
  · subst hm; rfl
  · rw [readDigits_reverse_digits _ fun d hd => Nat.digits_lt_base (by norm_num) hd,
      Nat.ofDigits_digits]

/-- `str` of a natural number writes decimal digits only. -/
theorem natRepr_digit (m : Nat) : ∀ c ∈ natRepr m, c ∈ "0123456789".toList := by
  have : ∀ d : Fin 10, digitChar d ∈ "0123456789".toList := by decide
  unfold natRepr
  split_ifs
  · decide
  · simp only [List.mem_map, List.mem_reverse]
    rintro _ ⟨d, hd, rfl⟩
    exact this ⟨d, Nat.digits_lt_base (by norm_num) hd⟩

/-- `str` of a natural number writes at least one digit. -/
theorem natRepr_ne_nil (m : Nat) : natRepr m ≠ [] := by
  unfold natRepr
  split_ifs with hm
  · simp
  · simpa using Nat.digits_ne_nil_iff_ne_zero.mpr hm

/-- `int.__repr__` writes digits and a minus sign. -/
theorem intRepr_chars (n : Int) : ∀ c ∈ intRepr n, c ∈ "0123456789-".toList := by
  have hsub : ∀ c ∈ "0123456789".toList, c ∈ "0123456789-".toList := by decide
  intro c hc
  cases n with
  | ofNat m => exact hsub c (natRepr_digit m c hc)
  | negSucc m =>
    rcases List.mem_cons.mp hc with rfl | hc
    · decide
    · exact hsub c (natRepr_digit _ c hc)

/-- `str` of an integer determines the integer. -/
theorem intRepr_injective : Function.Injective intRepr := by
  have hhead : ∀ m t, natRepr m ≠ '-' :: t := fun m t h =>
    absurd (natRepr_digit m '-' (h ▸ List.mem_cons_self _ _)) (by decide)
  intro n n' h
  cases n <;> cases n' <;> simp only [intRepr, List.cons.injEq] at h
  · have := congrArg readDigits h
    simp only [readDigits_natRepr] at this
    rw [this]
  · exact (hhead _ _ h).elim
  · exact (hhead _ _ h.symm).elim
  · have := congrArg readDigits h.2
    simp only [readDigits_natRepr, Nat.add_right_cancel_iff] at this
    rw [this]

/-- The text of a float is one of `NaN`, `Infinity`, `-Infinity`, or its `repr`, which is made of
the characters of a finite float's `repr`. -/
theorem floatRepr_cases {r : String} (h : floatText r = true) :
    (r = "nan" ∧ floatRepr r = "NaN".toList) ∨ (r = "inf" ∧ floatRepr r = "Infinity".toList) ∨
      (r = "-inf" ∧ floatRepr r = "-Infinity".toList) ∨
      (floatRepr r = r.toList ∧ (∀ c ∈ r.toList, c ∈ "0123456789+-.e".toList) ∧
        ('.' ∈ r.toList ∨ 'e' ∈ r.toList)) := by
  unfold floatText at h
  unfold floatRepr
  by_cases h₁ : r = "nan"
  · exact .inl ⟨h₁, by simp [h₁]⟩
  by_cases h₂ : r = "inf"
  · exact .inr (.inl ⟨h₂, by simp [h₂]⟩)
  by_cases h₃ : r = "-inf"
  · exact .inr (.inr (.inl ⟨h₃, by simp [h₃]⟩))
  simp only [h₁, h₂, h₃, beq_iff_eq, Bool.false_or, Bool.and_eq_true, List.all_eq_true,
    List.elem_eq_mem, decide_eq_true_eq, Bool.or_eq_true, or_false, false_or] at h
  exact .inr (.inr (.inr ⟨by simp only [h₁, h₂, h₃, if_false], h⟩))

/-- `repr` of a float text determines the text. -/
theorem floatRepr_injective {r r' : String} (h : floatText r = true) (h' : floatText r' = true)
    (he : floatRepr r = floatRepr r') : r = r' := by
  -- a finite float's text has none of the letters of `NaN` and `Infinity`
  have hNI : ∀ c ∈ "NI".toList, c ∉ "0123456789+-.e".toList := by decide
  have hfin : ∀ {q : String} (c : Char), (∀ c ∈ q.toList, c ∈ "0123456789+-.e".toList) →
      c ∈ "NI".toList → c ∉ q.toList := fun c hq hc hm => hNI c hc (hq c hm)
  rcases floatRepr_cases h with ⟨rfl, e⟩ | ⟨rfl, e⟩ | ⟨rfl, e⟩ | ⟨e, hq, -⟩ <;>
    rcases floatRepr_cases h' with ⟨rfl, e'⟩ | ⟨rfl, e'⟩ | ⟨rfl, e'⟩ | ⟨e', hq', -⟩ <;>
    first
      | rfl
      | rw [e, e'] at he
        first
          | exact absurd he (by decide)
          | exact String.ext he
          | exact (hfin 'N' hq' (by decide) (he ▸ by decide)).elim
          | exact (hfin 'I' hq' (by decide) (he ▸ by decide)).elim
          | exact (hfin 'N' hq (by decide) (he ▸ by decide)).elim
          | exact (hfin 'I' hq (by decide) (he ▸ by decide)).elim

/-- No float's text is an integer's: it holds a point, an `e`, or a letter of `NaN` or
`Infinity`. -/
theorem intRepr_ne_floatRepr {r : String} (h : floatText r = true) (n : Int) :
    intRepr n ≠ floatRepr r := by
  have hint := intRepr_chars n
  obtain ⟨c, hc, hmark⟩ : ∃ c ∈ floatRepr r, c ∈ ".eNI".toList := by
    rcases floatRepr_cases h with ⟨-, e⟩ | ⟨-, e⟩ | ⟨-, e⟩ | ⟨e, -, hm⟩ <;> rw [e]
    · exact ⟨'N', by decide, by decide⟩
    · exact ⟨'I', by decide, by decide⟩
    · exact ⟨'I', by decide, by decide⟩
    · rcases hm with hm | hm
      · exact ⟨'.', hm, by decide⟩
      · exact ⟨'e', hm, by decide⟩
  have hsep : ∀ c ∈ ".eNI".toList, c ∉ "0123456789-".toList := by decide
  exact fun he => hsep c hmark (hint c (he ▸ hc))

/-- The text of an integer or of a float is made of number characters. -/
theorem intRepr_number (n : Int) : ∀ c ∈ intRepr n, c ∈ numberChars := by
  have hsub : ∀ c ∈ "0123456789-".toList, c ∈ numberChars := by decide
  exact fun c hc => hsub c (intRepr_chars n c hc)

/-- `repr` of a float text writes characters of a JSON number only. -/
theorem floatRepr_number {r : String} (h : floatText r = true) :
    ∀ c ∈ floatRepr r, c ∈ numberChars := by
  rcases floatRepr_cases h with ⟨-, e⟩ | ⟨-, e⟩ | ⟨-, e⟩ | ⟨e, hq, -⟩ <;> rw [e]
  any_goals decide
  have hsub : ∀ c ∈ "0123456789+-.e".toList, c ∈ numberChars := by decide
  exact fun c hc => hsub c (hq c hc)

/-- A run of characters of `p`, followed by nothing or by a character outside `p`, ends there. -/
theorem append_eq_of_run {p : Char → Prop} :
    ∀ {a b r₁ r₂ : List Char}, (∀ c ∈ a, p c) → (∀ c ∈ b, p c) → (∀ c ∈ r₁.head?, ¬ p c) →
      (∀ c ∈ r₂.head?, ¬ p c) → a ++ r₁ = b ++ r₂ → a = b ∧ r₁ = r₂
  | [], [], _, _, _, _, _, _, h => ⟨rfl, h⟩
  | [], c :: _, _, _, _, hb, h₁, _, h =>
    (h₁ c (by rw [List.nil_append] at h; simp [h]) (hb c (List.mem_cons_self _ _))).elim
  | c :: _, [], _, _, ha, _, _, h₂, h =>
    (h₂ c (by rw [List.nil_append] at h; simp [← h]) (ha c (List.mem_cons_self _ _))).elim
  | c :: a, d :: b, _, _, ha, hb, h₁, h₂, h => by
    simp only [List.cons_append, List.cons.injEq] at h
    obtain ⟨rfl, h⟩ := h
    obtain ⟨rfl, rfl⟩ := append_eq_of_run (fun c hc => ha c (List.mem_cons_of_mem _ hc))
      (fun c hc => hb c (List.mem_cons_of_mem _ hc)) h₁ h₂ h
    exact ⟨rfl, rfl⟩

/-! ## Strings: a prefix code of escape units -/

/-- The value of a lower-case hexadecimal digit. -/
def hexValue (c : Char) : Option Nat :=
  if 48 ≤ c.toNat ∧ c.toNat < 58 then some (c.toNat - 48)
  else if 97 ≤ c.toNat ∧ c.toNat < 103 then some (c.toNat - 87)
  else none

/-- A hexadecimal digit reads back as its value. -/
theorem hexValue_hexDigit : ∀ n : Fin 16, hexValue (hexDigit n) = some n := by decide

/-- Four hexadecimal digits, most significant first, and what follows them. -/
def readHex4 : List Char → Option (Nat × List Char)
  | a :: b :: c :: d :: t => do
    let va ← hexValue a
    let vb ← hexValue b
    let vc ← hexValue c
    let vd ← hexValue d
    pure (4096 * va + 256 * vb + 16 * vc + vd, t)
  | _ => none

/-- Four hexadecimal digits of a number below `0x10000` read back as the number. -/
theorem readHex4_hex4 {n : Nat} (hn : n < 0x10000) (t : List Char) :
    readHex4 (hex4 n ++ t) = some (n, t) := by
  have hv : ∀ k, k < 16 → hexValue (hexDigit k) = some k := fun k hk => hexValue_hexDigit ⟨k, hk⟩
  simp only [hex4, List.cons_append, List.nil_append, readHex4, hv _ (Nat.mod_lt _ (by norm_num)),
    Option.pure_def, Option.bind_eq_bind, Option.some_bind, Option.some.injEq, Prod.mk.injEq,
    and_true]
  omega

/-- The character that a two-character escape `\x` stands for. -/
def shortEscape (x : Char) : Option Char :=
  if x = '\\' then some '\\' else if x = '"' then some '"' else if x = 'b' then some (Char.ofNat 8)
  else if x = 'f' then some (Char.ofNat 12) else if x = 'n' then some '\n'
  else if x = 'r' then some '\r' else if x = 't' then some '\t' else none

/-- A `\u` escape after its four digits `hi`: a character of the Basic Multilingual Plane, or the
high half of a surrogate pair, whose low half is the next `\u` escape. -/
def readSurrogate (hi : Nat) (t : List Char) : Option (Char × List Char) :=
  if 0xd800 ≤ hi ∧ hi < 0xdc00 then
    match t with
    | '\\' :: 'u' :: t =>
      (readHex4 t).map fun (lo, t) =>
        (Char.ofNat (0x10000 + (hi - 0xd800) * 1024 + (lo - 0xdc00)), t)
    | _ => none
  else some (Char.ofNat hi, t)

/-- One escape unit of `encode_basestring_ascii`, read back: the character, and what follows. -/
def readEscape : List Char → Option (Char × List Char)
  | [] => none
  | c :: t =>
    if c ≠ '\\' then some (c, t)
    else
      match t with
      | 'u' :: t => (readHex4 t).bind fun (hi, t) => readSurrogate hi t
      | x :: t => (shortEscape x).map (·, t)
      | [] => none

/-- A `\u` escape of a character of the Basic Multilingual Plane. -/
theorem readEscape_unicode {n : Nat} (hn : n < 0x10000) (hs : ¬ (0xd800 ≤ n ∧ n < 0xdc00))
    (t : List Char) : readEscape (('\\' :: 'u' :: hex4 n) ++ t) = some (Char.ofNat n, t) := by
  simp only [List.cons_append, readEscape, ne_eq, not_true_eq_false, if_false, readHex4_hex4 hn,
    Option.some_bind, readSurrogate, if_neg hs]

/-- A surrogate pair of `\u` escapes. -/
theorem readEscape_pair {hi lo : Nat} (hh : 0xd800 ≤ hi ∧ hi < 0xdc00) (hl : lo < 0x10000)
    (t : List Char) :
    readEscape (('\\' :: 'u' :: hex4 hi ++ '\\' :: 'u' :: hex4 lo) ++ t) =
      some (Char.ofNat (0x10000 + (hi - 0xd800) * 1024 + (lo - 0xdc00)), t) := by
  simp only [List.cons_append, List.append_assoc, readEscape, ne_eq, not_true_eq_false, if_false,
    readHex4_hex4 (show hi < 0x10000 by omega), Option.some_bind, readSurrogate, if_pos hh,
    readHex4_hex4 hl, Option.map_some']

/-- Every escape unit reads back as its character. -/
theorem readEscape_escapeChar (c : Char) (t : List Char) :
    readEscape (escapeChar c ++ t) = some (c, t) := by
  have hc := toNat_scalar c
  have hsmall : ∀ {v : Nat}, v = c.toNat → Char.ofNat v = c := ofNat_eq
  dsimp only [escapeChar]
  by_cases h₁ : 0x20 ≤ c.toNat ∧ c.toNat ≤ 0x7e ∧ c ≠ '\\' ∧ c ≠ '"'
  · rw [if_pos h₁]
    simp [readEscape, h₁.2.2.1]
  rw [if_neg h₁]
  by_cases h₂ : c = '\\'
  · subst h₂; simp [readEscape, shortEscape]
  rw [if_neg h₂]
  by_cases h₃ : c = '"'
  · subst h₃; simp [readEscape, shortEscape]
  rw [if_neg h₃]
  by_cases h₄ : c.toNat = 0x08
  · rw [if_pos h₄]
    simpa [readEscape, shortEscape] using hsmall h₄.symm
  rw [if_neg h₄]
  by_cases h₅ : c.toNat = 0x0c
  · rw [if_pos h₅]
    simpa [readEscape, shortEscape] using hsmall h₅.symm
  rw [if_neg h₅]
  by_cases h₆ : c = '\n'
  · subst h₆; simp [readEscape, shortEscape]
  rw [if_neg h₆]
  by_cases h₇ : c = '\r'
  · subst h₇; simp [readEscape, shortEscape]
  rw [if_neg h₇]
  by_cases h₈ : c = '\t'
  · subst h₈; simp [readEscape, shortEscape]
  rw [if_neg h₈]
  by_cases h₉ : 0x10000 ≤ c.toNat
  · -- a surrogate pair: the high half, then the low half
    rw [if_pos h₉, readEscape_pair (by omega) (by omega), Option.some.injEq, Prod.mk.injEq,
      and_iff_left rfl]
    exact hsmall (by omega)
  · -- a `\u` escape of the Basic Multilingual Plane, which is no surrogate
    rw [if_neg h₉, readEscape_unicode (by omega) (by omega), hsmall rfl]

/-- No escape unit opens with `"`: the string's closing quote is where it ends. -/
theorem escapeChar_append_ne_quote (c : Char) (u t : List Char) : escapeChar c ++ u ≠ '"' :: t := by
  intro h
  have hr := readEscape_escapeChar c u
  rw [h] at hr
  obtain ⟨rfl, rfl⟩ : c = '"' ∧ u = t := by simpa [readEscape] using hr.symm
  rw [show escapeChar '"' = ['\\', '"'] by decide] at h
  simp at h

/-- The escaped characters of a string, then its closing quote, determine the string and what
follows. -/
theorem escapes_append_inj :
    ∀ {s s' r₁ r₂ : List Char}, s.flatMap escapeChar ++ '"' :: r₁ = s'.flatMap escapeChar ++ '"' :: r₂ →
      s = s' ∧ r₁ = r₂
  | [], [], _, _, h => ⟨rfl, (List.cons.inj h).2⟩
  | [], c :: _, _, _, h => absurd h.symm (by
      rw [List.flatMap_cons, List.append_assoc]
      exact escapeChar_append_ne_quote c _ _)
  | c :: _, [], _, _, h => absurd h (by
      rw [List.flatMap_cons, List.append_assoc]
      exact escapeChar_append_ne_quote c _ _)
  | c :: s, c' :: s', _, _, h => by
    rw [List.flatMap_cons, List.flatMap_cons, List.append_assoc, List.append_assoc] at h
    have hr := congrArg readEscape h
    rw [readEscape_escapeChar, readEscape_escapeChar, Option.some.injEq, Prod.mk.injEq] at hr
    obtain ⟨rfl, hrest⟩ := hr
    obtain ⟨rfl, rfl⟩ := escapes_append_inj hrest
    exact ⟨rfl, rfl⟩

/-- A string's text, `encode_basestring_ascii`, determines the string and what follows it. -/
theorem encodeString_append_inj {s s' : String} {r₁ r₂ : List Char}
    (h : encodeString s ++ r₁ = encodeString s' ++ r₂) : s = s' ∧ r₁ = r₂ := by
  simp only [encodeString, List.cons_append, List.append_assoc, List.singleton_append,
    List.cons.injEq, true_and] at h
  obtain ⟨hs, rfl⟩ := escapes_append_inj h
  exact ⟨String.ext hs, rfl⟩

/-! ## Values that `json.loads` returns -/

mutual

/-- What `json.loads` can return: every dictionary has distinct keys, and every float is written as
CPython's `repr` writes one. -/
def JsonValue.loadable : JsonValue → Bool
  | .float r => floatText r
  | .array xs => itemsLoadable xs
  | .object kvs => decide (kvs.map Prod.fst).Nodup && entriesLoadable kvs
  | _ => true

/-- `JsonValue.loadable` of every item of a list. -/
def itemsLoadable : List JsonValue → Bool
  | [] => true
  | x :: xs => x.loadable && itemsLoadable xs

/-- `JsonValue.loadable` of every value of a dictionary. -/
def entriesLoadable : List (String × JsonValue) → Bool
  | [] => true
  | (_, v) :: kvs => v.loadable && entriesLoadable kvs

end

/-- The items of a list load when each of them does. -/
@[simp] theorem itemsLoadable_iff {xs : List JsonValue} :
    itemsLoadable xs = true ↔ ∀ x ∈ xs, x.loadable = true := by
  induction xs with
  | nil => simp [itemsLoadable]
  | cons x xs ih => simp [itemsLoadable, ih]

/-- The entries of a dictionary load when each value does. -/
@[simp] theorem entriesLoadable_iff {kvs : List (String × JsonValue)} :
    entriesLoadable kvs = true ↔ ∀ e ∈ kvs, e.2.loadable = true := by
  induction kvs with
  | nil => simp [entriesLoadable]
  | cons e kvs ih =>
    simp only [entriesLoadable, Bool.and_eq_true, ih, List.forall_mem_cons]

/-- A list loads when each of its items does. -/
@[simp] theorem loadable_array {xs : List JsonValue} :
    (JsonValue.array xs).loadable = true ↔ ∀ x ∈ xs, x.loadable = true := by
  rw [JsonValue.loadable, itemsLoadable_iff]

/-- A dictionary loads when its keys are distinct and each value loads. -/
@[simp] theorem loadable_object {kvs : List (String × JsonValue)} :
    (JsonValue.object kvs).loadable = true ↔
      (kvs.map Prod.fst).Nodup ∧ ∀ e ∈ kvs, e.2.loadable = true := by
  rw [JsonValue.loadable, Bool.and_eq_true, decide_eq_true_iff, entriesLoadable_iff]

/-! ## The first character of a value's text -/

/-- The kind of value that a text opens with its first character: `0` a number, `1` to `3`
`null`, `true` and `false`, `4` a string, `5` a list, `6` a dictionary, `7` none of these. -/
def leadKind (c : Char) : Nat :=
  if c = 'n' then 1 else if c = 't' then 2 else if c = 'f' then 3 else if c = '"' then 4
  else if c = '[' then 5 else if c = '{' then 6 else if c ∈ numberChars then 0 else 7

/-- The kind of a value, as `leadKind` numbers them. -/
def JsonValue.kind : JsonValue → Nat
  | .int _ | .float _ => 0
  | .null => 1
  | .bool true => 2
  | .bool false => 3
  | .str _ => 4
  | .array _ => 5
  | .object _ => 6

/-- A loadable value's text is not empty, and its first character tells its kind. -/
theorem encode_lead {v : JsonValue} (hv : v.loadable = true) :
    ∃ c t, encode v = c :: t ∧ leadKind c = v.kind := by
  have hnum : ∀ c ∈ "0123456789+-.eNI".toList, leadKind c = 0 := by decide
  have hnum' : ∀ c ∈ "0123456789-".toList, c ∈ "0123456789+-.eNI".toList := by decide
  cases v with
  | null => exact ⟨_, _, rfl, rfl⟩
  | bool b => cases b <;> exact ⟨_, _, rfl, rfl⟩
  | int n =>
    obtain ⟨c, t, e⟩ : ∃ c t, intRepr n = c :: t := by
      cases n with
      | ofNat m => exact List.exists_cons_of_ne_nil (natRepr_ne_nil m)
      | negSucc m => exact ⟨_, _, rfl⟩
    exact ⟨c, t, e, hnum c (hnum' c (intRepr_chars n c (e ▸ List.mem_cons_self _ _)))⟩
  | float r =>
    simp only [JsonValue.loadable] at hv
    rcases floatRepr_cases hv with ⟨-, e⟩ | ⟨-, e⟩ | ⟨-, e⟩ | ⟨e, hq, hm⟩
    · exact ⟨'N', _, e, rfl⟩
    · exact ⟨'I', _, e, rfl⟩
    · exact ⟨'-', _, e, rfl⟩
    · obtain ⟨c, t, hr⟩ : ∃ c t, r.toList = c :: t :=
        List.exists_cons_of_ne_nil fun h => by rw [h] at hm; simp at hm
      have hsub : ∀ c ∈ "0123456789+-.e".toList, c ∈ "0123456789+-.eNI".toList := by decide
      exact ⟨c, t, e.trans hr, hnum c (hsub c (hq c (hr ▸ List.mem_cons_self _ _)))⟩
  | str s => exact ⟨_, _, rfl, rfl⟩
  | array xs => cases xs <;> exact ⟨_, _, rfl, rfl⟩
  | object kvs => cases kvs <;> exact ⟨_, _, rfl, rfl⟩

/-- A text followed by `r` ends where the value it writes ends: `r` is empty, or goes on with a
separator or a closing bracket. -/
def Closes (r : List Char) : Prop := ∀ c ∈ r.head?, c = ',' ∨ c = ']' ∨ c = '}'

/-- A separator or a closing bracket is of the closing kind. -/
theorem leadKind_closer {c : Char} (h : c = ',' ∨ c = ']' ∨ c = '}') : leadKind c = 7 := by
  rcases h with rfl | rfl | rfl <;> rfl

/-- Two texts that coincide up to their continuations open values of one kind. -/
theorem kind_eq_of_append {v w : JsonValue} {r₁ r₂ : List Char} (hv : v.loadable = true)
    (hw : w.loadable = true) (h : encode v ++ r₁ = encode w ++ r₂) : v.kind = w.kind := by
  obtain ⟨c, t, e, hc⟩ := encode_lead hv
  obtain ⟨c', t', e', hc'⟩ := encode_lead hw
  rw [e, e', List.cons_append, List.cons_append, List.cons.injEq] at h
  rw [← hc, ← hc', h.1]

/-- The text of a loadable value never opens with a separator or a closing bracket. -/
theorem encode_append_ne_closer {v : JsonValue} (hv : v.loadable = true) {c : Char}
    (hc : c = ',' ∨ c = ']' ∨ c = '}') (u t : List Char) : encode v ++ u ≠ c :: t := by
  obtain ⟨c', t', e, hk⟩ := encode_lead hv
  rw [e, List.cons_append]
  intro h
  have := leadKind_closer hc
  rw [← (List.cons.inj h).1, hk] at this
  cases v <;> simp [JsonValue.kind] at this
  rename_i b
  cases b <;> simp at this

/-! ## The printer can be read back -/

/-- The empty list is written `[]`. -/
theorem encode_array_nil : encode (.array []) = ['[', ']'] := rfl

/-- The empty dictionary is written `{}`. -/
theorem encode_object_nil : encode (.object []) = ['{', '}'] := rfl

/-- The items of a list followed by `]` end the list. -/
theorem closes_items (xs : List JsonValue) (r : List Char) : Closes (encodeItems xs ++ ']' :: r) := by
  cases xs <;> simp [Closes, encodeItems]

/-- The entries of a dictionary followed by `}` end the dictionary. -/
theorem closes_entries (kvs : List (String × JsonValue)) (r : List Char) :
    Closes (encodeEntries kvs ++ '}' :: r) := by
  rcases kvs with _ | ⟨⟨k, v⟩, kvs⟩ <;> simp [Closes, encodeEntries]

/-- The text of a number is made of number characters. -/
theorem encode_number {v : JsonValue} (hv : v.loadable = true) (hk : v.kind = 0) :
    ∀ c ∈ encode v, c ∈ numberChars := by
  cases v with
  | int n => exact intRepr_number n
  | float r => exact floatRepr_number hv
  | bool b => cases b <;> simp [JsonValue.kind] at hk
  | _ => simp [JsonValue.kind] at hk

/-- A value of the number kind is an integer or a float. -/
theorem kind_eq_zero {v : JsonValue} (hk : v.kind = 0) :
    (∃ n, v = .int n) ∨ ∃ r, v = .float r := by
  cases v with
  | int n => exact .inl ⟨n, rfl⟩
  | float r => exact .inr ⟨r, rfl⟩
  | bool b => cases b <;> simp [JsonValue.kind] at hk
  | _ => simp [JsonValue.kind] at hk

/-- Two numbers whose texts coincide up to their continuations are the same number. -/
theorem number_append_inj {v w : JsonValue} {r₁ r₂ : List Char} (hv : v.loadable = true)
    (hw : w.loadable = true) (hk : v.kind = 0) (hk' : w.kind = 0) (h₁ : Closes r₁)
    (h₂ : Closes r₂) (h : encode v ++ r₁ = encode w ++ r₂) : v = w ∧ r₁ = r₂ := by
  have hcl : ∀ {r : List Char}, Closes r → ∀ c ∈ r.head?, c ∉ numberChars := fun hr c hc => by
    rcases hr c hc with rfl | rfl | rfl <;> decide
  obtain ⟨he, rfl⟩ := append_eq_of_run (encode_number hv hk) (encode_number hw hk') (hcl h₁) (hcl h₂) h
  refine ⟨?_, rfl⟩
  rcases kind_eq_zero hk with ⟨n, rfl⟩ | ⟨r, rfl⟩ <;> rcases kind_eq_zero hk' with ⟨n', rfl⟩ | ⟨r', rfl⟩
  · exact congrArg _ (intRepr_injective he)
  · exact (intRepr_ne_floatRepr hw _ he).elim
  · exact (intRepr_ne_floatRepr hv _ he.symm).elim
  · exact congrArg _ (floatRepr_injective hv hw he)

/-- A value's text, followed by nothing or by a separator or a closing bracket, determines the
value and what follows it. -/
theorem encode_append_inj :
    ∀ v w : JsonValue, ∀ {r₁ r₂ : List Char}, v.loadable = true → w.loadable = true → Closes r₁ →
      Closes r₂ → encode v ++ r₁ = encode w ++ r₂ → v = w ∧ r₁ = r₂ := by
  intro v
  refine encode.induct
    (fun v => ∀ w : JsonValue, ∀ {r₁ r₂ : List Char}, v.loadable = true → w.loadable = true →
      Closes r₁ → Closes r₂ → encode v ++ r₁ = encode w ++ r₂ → v = w ∧ r₁ = r₂)
    (fun kvs => ∀ kvs' : List (String × JsonValue), ∀ {r₁ r₂ : List Char},
      (∀ e ∈ kvs, e.2.loadable = true) → (∀ e ∈ kvs', e.2.loadable = true) →
        encodeEntries kvs ++ '}' :: r₁ = encodeEntries kvs' ++ '}' :: r₂ → kvs = kvs' ∧ r₁ = r₂)
    (fun xs => ∀ ys : List JsonValue, ∀ {r₁ r₂ : List Char}, (∀ x ∈ xs, x.loadable = true) →
      (∀ y ∈ ys, y.loadable = true) →
        encodeItems xs ++ ']' :: r₁ = encodeItems ys ++ ']' :: r₂ → xs = ys ∧ r₁ = r₂)
    ?null ?true ?false ?int ?float ?str ?arrayNil ?arrayCons ?objectNil ?objectCons ?itemsNil
    ?itemsCons ?entriesNil ?entriesCons v
  case null | true | false =>
    intro w r₁ r₂ hv hw _ _ h
    have hk := kind_eq_of_append hv hw h
    rcases w with _ | ⟨_ | _⟩ | _ | _ | _ | _ | _ <;> simp [JsonValue.kind] at hk
    exact ⟨rfl, List.append_cancel_left h⟩
  case int | float =>
    intro _ w r₁ r₂ hv hw h₁ h₂ h
    exact number_append_inj hv hw rfl ((kind_eq_of_append hv hw h).symm.trans rfl) h₁ h₂ h
  case str =>
    intro s w r₁ r₂ hv hw _ _ h
    have hk := kind_eq_of_append hv hw h
    rcases w with _ | ⟨_ | _⟩ | _ | _ | s' | _ | _ <;> simp [JsonValue.kind] at hk
    obtain ⟨rfl, rfl⟩ := encodeString_append_inj h
    exact ⟨rfl, rfl⟩
  case arrayNil =>
    intro w r₁ r₂ hv hw _ _ h
    have hk := kind_eq_of_append hv hw h
    rcases w with _ | ⟨_ | _⟩ | _ | _ | _ | ⟨_ | ⟨y, ys⟩⟩ | _ <;> simp [JsonValue.kind] at hk
    · exact ⟨rfl, List.append_cancel_left h⟩
    · rw [encode_array_nil] at h
      simp only [encode, List.cons_append, List.append_assoc, List.singleton_append,
        List.nil_append, List.cons.injEq, true_and] at h
      exact absurd h.symm (encode_append_ne_closer ((loadable_array.mp hw) y (List.mem_cons_self _ _))
        (.inr (.inl rfl)) _ _)
  case arrayCons =>
    intro x xs ihx ihxs w r₁ r₂ hv hw _ _ h
    have hk := kind_eq_of_append hv hw h
    rcases w with _ | ⟨_ | _⟩ | _ | _ | _ | ⟨_ | ⟨y, ys⟩⟩ | _ <;> simp [JsonValue.kind] at hk
    · rw [encode_array_nil] at h
      simp only [encode, List.cons_append, List.append_assoc, List.singleton_append,
        List.nil_append, List.cons.injEq, true_and] at h
      exact absurd h (encode_append_ne_closer ((loadable_array.mp hv) x (List.mem_cons_self _ _))
        (.inr (.inl rfl)) _ _)
    · simp only [encode, List.cons_append, List.append_assoc, List.singleton_append,
        List.cons.injEq, true_and] at h
      have hx := loadable_array.mp hv
      have hy := loadable_array.mp hw
      obtain ⟨rfl, h'⟩ := ihx y (hx x (List.mem_cons_self _ _)) (hy y (List.mem_cons_self _ _))
        (closes_items _ _) (closes_items _ _) h
      obtain ⟨rfl, rfl⟩ := ihxs ys (fun x' m => hx x' (List.mem_cons_of_mem _ m))
        (fun y' m => hy y' (List.mem_cons_of_mem _ m)) h'
      exact ⟨rfl, rfl⟩
  case objectNil =>
    intro w r₁ r₂ hv hw _ _ h
    have hk := kind_eq_of_append hv hw h
    rcases w with _ | ⟨_ | _⟩ | _ | _ | _ | _ | ⟨_ | ⟨⟨k, u⟩, kvs⟩⟩ <;> simp [JsonValue.kind] at hk
    · exact ⟨rfl, List.append_cancel_left h⟩
    · simp [encode_object_nil, encode, encodeString] at h
  case objectCons =>
    intro k u kvs ihu ihkvs w r₁ r₂ hv hw _ _ h
    have hk := kind_eq_of_append hv hw h
    rcases w with _ | ⟨_ | _⟩ | _ | _ | _ | _ | ⟨_ | ⟨⟨k', u'⟩, kvs'⟩⟩ <;> simp [JsonValue.kind] at hk
    · simp [encode_object_nil, encode, encodeString] at h
    · simp only [encode, List.cons_append, List.append_assoc, List.singleton_append,
        List.cons.injEq, true_and] at h
      obtain ⟨rfl, hrest⟩ := encodeString_append_inj h
      simp only [List.cons.injEq, true_and] at hrest
      have hu := (loadable_object.mp hv).2
      have hu' := (loadable_object.mp hw).2
      obtain ⟨rfl, h'⟩ := ihu u' (hu _ (List.mem_cons_self _ _)) (hu' _ (List.mem_cons_self _ _))
        (closes_entries _ _) (closes_entries _ _) hrest
      obtain ⟨rfl, rfl⟩ := ihkvs kvs' (fun e m => hu e (List.mem_cons_of_mem _ m))
        (fun e m => hu' e (List.mem_cons_of_mem _ m)) h'
      exact ⟨rfl, rfl⟩
  case itemsNil =>
    rintro (_ | ⟨y, ys⟩) r₁ r₂ - - h
    · exact ⟨rfl, (List.cons.inj h).2⟩
    · simp [encodeItems] at h
  case itemsCons =>
    intro x xs ihx ihxs ys r₁ r₂ hx hy h
    rcases ys with _ | ⟨y, ys⟩
    · simp [encodeItems] at h
    · simp only [encodeItems, List.cons_append, List.append_assoc, List.cons.injEq, true_and] at h
      obtain ⟨rfl, h'⟩ := ihx y (hx x (List.mem_cons_self _ _)) (hy y (List.mem_cons_self _ _))
        (closes_items _ _) (closes_items _ _) h
      obtain ⟨rfl, rfl⟩ := ihxs ys (fun x' m => hx x' (List.mem_cons_of_mem _ m))
        (fun y' m => hy y' (List.mem_cons_of_mem _ m)) h'
      exact ⟨rfl, rfl⟩
  case entriesNil =>
    rintro (_ | ⟨⟨k, u⟩, kvs⟩) r₁ r₂ - - h
    · exact ⟨rfl, (List.cons.inj h).2⟩
    · simp [encodeEntries] at h
  case entriesCons =>
    intro k u kvs ihu ihkvs kvs' r₁ r₂ hu hu' h
    rcases kvs' with _ | ⟨⟨k', u'⟩, kvs'⟩
    · simp [encodeEntries] at h
    · simp only [encodeEntries, List.cons_append, List.append_assoc, List.cons.injEq,
        true_and] at h
      obtain ⟨rfl, hrest⟩ := encodeString_append_inj h
      simp only [List.cons.injEq, true_and] at hrest
      obtain ⟨rfl, h'⟩ := ihu u' (hu _ (List.mem_cons_self _ _)) (hu' _ (List.mem_cons_self _ _))
        (closes_entries _ _) (closes_entries _ _) hrest
      obtain ⟨rfl, rfl⟩ := ihkvs kvs' (fun e m => hu e (List.mem_cons_of_mem _ m))
        (fun e m => hu' e (List.mem_cons_of_mem _ m)) h'
      exact ⟨rfl, rfl⟩

/-! ## Insertion order -/

/-- Two values that are the same up to the order of the entries of their dictionaries, at any
depth. -/
inductive JsonValue.Reorders : JsonValue → JsonValue → Prop
  | refl (v : JsonValue) : JsonValue.Reorders v v
  | trans {u v w : JsonValue} : JsonValue.Reorders u v → JsonValue.Reorders v w →
      JsonValue.Reorders u w
  /-- The entries of a dictionary in another order. -/
  | perm {kvs kvs' : List (String × JsonValue)} : kvs.Perm kvs' →
      JsonValue.Reorders (.object kvs) (.object kvs')
  /-- One item of a list reordered inside. -/
  | item (xs ys : List JsonValue) {x y : JsonValue} : JsonValue.Reorders x y →
      JsonValue.Reorders (.array (xs ++ x :: ys)) (.array (xs ++ y :: ys))
  /-- One value of a dictionary reordered inside. -/
  | entry (kvs kvs' : List (String × JsonValue)) (k : String) {v w : JsonValue} :
      JsonValue.Reorders v w →
        JsonValue.Reorders (.object (kvs ++ (k, v) :: kvs')) (.object (kvs ++ (k, w) :: kvs'))

namespace JsonValue.Reorders

/-- A reordering undone is a reordering. -/
theorem symm {v w : JsonValue} (h : v.Reorders w) : w.Reorders v := by
  induction h with
  | refl v => exact .refl v
  | trans _ _ ih₁ ih₂ => exact .trans ih₂ ih₁
  | perm hp => exact .perm hp.symm
  | item xs ys _ ih => exact .item xs ys ih
  | entry kvs kvs' k _ ih => exact .entry kvs kvs' k ih

/-- Reordering inside every item of a list. -/
theorem array_map {f : JsonValue → JsonValue} :
    ∀ {xs : List JsonValue} (pre : List JsonValue), (∀ x ∈ xs, x.Reorders (f x)) →
      (JsonValue.array (pre ++ xs)).Reorders (.array (pre ++ xs.map f))
  | [], pre, _ => .refl _
  | x :: xs, pre, h => by
    have ih := array_map (pre ++ [f x]) fun x' h' => h x' (List.mem_cons_of_mem _ h')
    simp only [List.append_assoc, List.singleton_append] at ih
    exact .trans (.item pre xs (h x (List.mem_cons_self _ _))) ih

/-- Reordering inside every value of a dictionary. -/
theorem object_map {f : JsonValue → JsonValue} :
    ∀ {kvs : List (String × JsonValue)} (pre : List (String × JsonValue)),
      (∀ e ∈ kvs, e.2.Reorders (f e.2)) →
        (JsonValue.object (pre ++ kvs)).Reorders (.object (pre ++ kvs.map fun e => (e.1, f e.2)))
  | [], pre, _ => .refl _
  | (k, v) :: kvs, pre, h => by
    have ih := object_map (pre ++ [(k, f v)]) fun e h' => h e (List.mem_cons_of_mem _ h')
    simp only [List.append_assoc, List.singleton_append] at ih
    exact .trans (.entry pre kvs k (h (k, v) (List.mem_cons_self _ _))) ih

end JsonValue.Reorders

/-- The canonical form of a list is the canonical form of each item. -/
theorem canonItems_eq_map : ∀ xs : List JsonValue, canonItems xs = xs.map canon
  | [] => rfl
  | x :: xs => by rw [canonItems, canonItems_eq_map xs, List.map_cons]

/-- The canonical form of the entries is the canonical form of each value. -/
theorem canonEntries_eq_map :
    ∀ kvs : List (String × JsonValue), canonEntries kvs = kvs.map fun e => (e.1, canon e.2)
  | [] => rfl
  | (k, v) :: kvs => by rw [canonEntries, canonEntries_eq_map kvs, List.map_cons]

/-- The canonical form of a list is the list of the canonical forms of its items. -/
@[simp] theorem canon_array (xs : List JsonValue) : canon (.array xs) = .array (xs.map canon) := by
  rw [canon, canonItems_eq_map]

/-- The canonical form of a dictionary is its entries, each value canonical, sorted by key. -/
@[simp] theorem canon_object (kvs : List (String × JsonValue)) :
    canon (.object kvs) = .object (sortItems (kvs.map fun e => (e.1, canon e.2))) := by
  rw [canon, canonEntries_eq_map]

/-- `canon` leaves a value that is no list and no dictionary alone. -/
theorem canon_of_atom {v : JsonValue} (ha : ∀ xs, v ≠ .array xs) (ho : ∀ kvs, v ≠ .object kvs) :
    canon v = v := by
  cases v <;> first | rfl | exact absurd rfl (ha _) | exact absurd rfl (ho _)

/-- `sortItems` sorts by the order of `String`, which is a linear order. -/
theorem sortItems_eq_mergeSort (l : List (String × JsonValue)) :
    sortItems l = l.mergeSort fun a b => decide (a.1 ≤ b.1) := by
  unfold sortItems
  congr
  funext a b
  exact decide_eq_decide.mpr
    (not_congr ((List.lt_iff_lex_lt b.1.data a.1.data).trans (@String.lt_iff_toList_lt b.1 a.1).symm))

/-- Sorting the entries by key reorders them. -/
theorem sortItems_perm (l : List (String × JsonValue)) : (sortItems l).Perm l :=
  List.mergeSort_perm _ _

/-- Sorting two permutations of entries with distinct keys gives one list. -/
theorem sortItems_eq_of_perm {l₁ l₂ : List (String × JsonValue)} (hp : l₁.Perm l₂)
    (hn : (l₁.map Prod.fst).Nodup) : sortItems l₁ = sortItems l₂ := by
  -- sorted by key with distinct keys is sorted strictly, which is antisymmetric
  have hs : ∀ l : List (String × JsonValue), (l.map Prod.fst).Nodup →
      (sortItems l).Sorted fun a b => a.1 < b.1 := by
    intro l hl
    have hle := @List.sorted_mergeSort _ (fun a b : String × JsonValue => decide (a.1 ≤ b.1))
      (fun a b c h₁ h₂ => by simp only [decide_eq_true_eq] at *; exact le_trans h₁ h₂)
      (fun a b => by simpa using le_total a.1 b.1) l
    have hne : ((sortItems l).map Prod.fst).Nodup := hl.perm ((sortItems_perm l).map _).symm
    rw [← sortItems_eq_mergeSort] at hle
    exact (hle.and (List.pairwise_map.mp hne)).imp fun h => lt_of_le_of_ne (by simpa using h.1) h.2
  haveI : IsAntisymm (String × JsonValue) fun a b => a.1 < b.1 :=
    ⟨fun _ _ h₁ h₂ => absurd (h₁.trans h₂) (lt_irrefl _)⟩
  exact List.eq_of_perm_of_sorted (((sortItems_perm l₁).trans hp).trans (sortItems_perm l₂).symm)
    (hs l₁ hn) (hs l₂ ((hp.map Prod.fst).nodup_iff.mp hn))

/-- Sorting a dictionary's entries keeps its keys distinct and its values loadable. -/
theorem loadable_canon {v : JsonValue} (hv : v.loadable = true) : (canon v).loadable = true := by
  revert hv
  refine canon.induct (fun v => v.loadable = true → (canon v).loadable = true)
    (fun kvs => ∀ e ∈ kvs, e.2.loadable = true → (canon e.2).loadable = true)
    (fun xs => ∀ x ∈ xs, x.loadable = true → (canon x).loadable = true)
    ?array ?object ?atom ?itemsNil ?itemsCons ?entriesNil ?entriesCons v
  case array =>
    intro xs ih hv
    simp only [canon_array, loadable_array, List.mem_map]
    rintro _ ⟨x, hx, rfl⟩
    exact ih x hx (loadable_array.mp hv x hx)
  case object =>
    intro kvs ih hv
    obtain ⟨hn, hvals⟩ := loadable_object.mp hv
    rw [canon_object, loadable_object]
    have hp := sortItems_perm (kvs.map fun e => (e.1, canon e.2))
    refine ⟨(hp.map Prod.fst).nodup_iff.mpr (by simpa [Function.comp_def] using hn), fun e he => ?_⟩
    obtain ⟨e', he', rfl⟩ := List.mem_map.mp (hp.subset he)
    exact ih e' he' (hvals e' he')
  case atom =>
    intro v ha ho hv
    rwa [canon_of_atom ha ho]
  case itemsNil => exact fun _ h => (List.not_mem_nil _ h).elim
  case itemsCons =>
    intro x xs ihx ihxs y hy
    rcases List.mem_cons.mp hy with rfl | hy
    · exact ihx
    · exact ihxs y hy
  case entriesNil => exact fun _ h => (List.not_mem_nil _ h).elim
  case entriesCons =>
    intro k u kvs ihu ihkvs e he
    rcases List.mem_cons.mp he with rfl | he
    · exact ihu
    · exact ihkvs e he

/-- A value is its `canon` reordered. -/
theorem reorders_canon (v : JsonValue) : v.Reorders (canon v) := by
  refine canon.induct (fun v => v.Reorders (canon v)) (fun kvs => ∀ e ∈ kvs, e.2.Reorders (canon e.2))
    (fun xs => ∀ x ∈ xs, x.Reorders (canon x)) ?array ?object ?atom ?itemsNil ?itemsCons
    ?entriesNil ?entriesCons v
  case array =>
    intro xs ih
    simpa using JsonValue.Reorders.array_map [] ih
  case object =>
    intro kvs ih
    rw [canon_object]
    exact .trans (by simpa using JsonValue.Reorders.object_map [] ih) (.perm (sortItems_perm _).symm)
  case atom =>
    intro v ha ho
    rw [canon_of_atom ha ho]
    exact .refl v
  case itemsNil => exact fun _ h => (List.not_mem_nil _ h).elim
  case itemsCons =>
    intro x xs ihx ihxs y hy
    rcases List.mem_cons.mp hy with rfl | hy
    · exact ihx
    · exact ihxs y hy
  case entriesNil => exact fun _ h => (List.not_mem_nil _ h).elim
  case entriesCons =>
    intro k u kvs ihu ihkvs e he
    rcases List.mem_cons.mp he with rfl | he
    · exact ihu
    · exact ihkvs e he

/-- Reordering keeps a value loadable and does not change its `canon`. -/
theorem canon_eq_of_reorders {v w : JsonValue} (h : v.Reorders w) (hv : v.loadable = true) :
    canon v = canon w ∧ w.loadable = true := by
  induction h with
  | refl v => exact ⟨rfl, hv⟩
  | trans _ _ ih₁ ih₂ =>
    obtain ⟨e₁, h₁⟩ := ih₁ hv
    obtain ⟨e₂, h₂⟩ := ih₂ h₁
    exact ⟨e₁.trans e₂, h₂⟩
  | perm hp =>
    obtain ⟨hn, hvals⟩ := loadable_object.mp hv
    refine ⟨?_, loadable_object.mpr ⟨(hp.map Prod.fst).nodup_iff.mp hn,
      fun e he => hvals e (hp.symm.subset he)⟩⟩
    rw [canon_object, canon_object]
    exact congrArg _ (sortItems_eq_of_perm (hp.map _) (by simpa [Function.comp_def] using hn))
  | item xs ys _ ih =>
    have hall := loadable_array.mp hv
    obtain ⟨e, hy⟩ := ih (hall _ (List.mem_append_right _ (List.mem_cons_self _ _)))
    refine ⟨by simp [e], loadable_array.mpr fun z hz => ?_⟩
    rcases List.mem_append.mp hz with hz | hz
    · exact hall z (List.mem_append_left _ hz)
    · rcases List.mem_cons.mp hz with rfl | hz
      · exact hy
      · exact hall z (List.mem_append_right _ (List.mem_cons_of_mem _ hz))
  | entry kvs kvs' k _ ih =>
    obtain ⟨hn, hvals⟩ := loadable_object.mp hv
    obtain ⟨e, hw⟩ := ih (hvals _ (List.mem_append_right _ (List.mem_cons_self _ _)))
    refine ⟨by simp [e], loadable_object.mpr ⟨by simpa using hn, fun z hz => ?_⟩⟩
    rcases List.mem_append.mp hz with hz | hz
    · exact hvals z (List.mem_append_left _ hz)
    · rcases List.mem_cons.mp hz with rfl | hz
      · exact hw
      · exact hvals z (List.mem_append_right _ (List.mem_cons_of_mem _ hz))

/-- A reordering keeps every key of a dictionary, with its value reordered. -/
theorem JsonValue.Reorders.mem_object {kvs kvs' : List (String × JsonValue)}
    (h : (JsonValue.object kvs).Reorders (.object kvs')) (hl : (JsonValue.object kvs).loadable = true)
    {k : String} {v : JsonValue} (hm : (k, v) ∈ kvs) : ∃ v', (k, v') ∈ kvs' ∧ v.Reorders v' := by
  have hc := (canon_eq_of_reorders h hl).1
  rw [canon_object, canon_object, JsonValue.object.injEq] at hc
  have hm' : (k, canon v) ∈ sortItems (kvs'.map fun e => (e.1, canon e.2)) :=
    hc ▸ (sortItems_perm _).symm.subset (List.mem_map_of_mem _ hm)
  obtain ⟨⟨k', v'⟩, hm'', he⟩ := List.mem_map.mp ((sortItems_perm _).subset hm')
  simp only [Prod.mk.injEq] at he
  obtain ⟨rfl, he⟩ := he
  exact ⟨v', hm'', (reorders_canon v).trans (he ▸ (reorders_canon v').symm)⟩

/-- Two loadable values have the same `json.dumps(..., sort_keys=True)` exactly when they are the
same up to the order of the entries of their dictionaries. -/
theorem dumps_eq_iff {v w : JsonValue} (hv : v.loadable = true) (hw : w.loadable = true) :
    dumps v = dumps w ↔ v.Reorders w := by
  constructor
  · intro h
    have hc : canon v = canon w := (@encode_append_inj (canon v) (canon w) [] []
      (loadable_canon hv) (loadable_canon hw) (by simp [Closes]) (by simp [Closes])
      (by simpa [dumps] using h)).1
    exact (reorders_canon v).trans (hc ▸ (reorders_canon w).symm)
  · intro h
    rw [dumps, dumps, (canon_eq_of_reorders h hv).1]

end TwinExporter

import TwinExporter.Base64

/-!
# The identifier codec

`encode_id` of `exporter.py` (and of `attack.py`) turns an identifier into the token that BaSyx
addresses a shell or a submodel by: the UTF-8 bytes of the identifier, in URL-safe Base64.
`utf8Char` is `str.encode('utf-8')` on one character, and `decodeUtf8` is `bytes.decode('utf-8')`
in its strict mode, which accepts exactly the well-formed sequences of the Unicode standard
(Table 3-7). A Lean `String` is a sequence of Unicode scalar values, so every character has an
encoding.

`encodeId_injective` is what the rest of the model uses: two identifiers with the same token are
the same identifier, so BaSyx keys and identifiers are interchangeable.
-/

namespace TwinExporter

/-- `str.encode('utf-8')` on one character: one to four bytes, by the range of its code point. -/
def utf8Char (c : Char) : List UInt8 :=
  let n := c.toNat
  if n < 0x80 then [UInt8.ofNat n]
  else if n < 0x800 then [UInt8.ofNat (0xc0 + n / 64), UInt8.ofNat (0x80 + n % 64)]
  else if n < 0x10000 then
    [UInt8.ofNat (0xe0 + n / 4096), UInt8.ofNat (0x80 + n / 64 % 64), UInt8.ofNat (0x80 + n % 64)]
  else
    [UInt8.ofNat (0xf0 + n / 262144), UInt8.ofNat (0x80 + n / 4096 % 64),
      UInt8.ofNat (0x80 + n / 64 % 64), UInt8.ofNat (0x80 + n % 64)]

/-- `s.encode('utf-8')`. -/
def encodeUtf8 (s : String) : List UInt8 := s.toList.flatMap utf8Char

/-- A continuation byte, `10xxxxxx`. -/
def isCont (b : UInt8) : Bool := 0x80 ≤ b.toNat && b.toNat < 0xc0

/-- The first character of a byte string, as `bytes.decode('utf-8')` reads it: a lead byte, its
continuation bytes, and a code point in the range of its length that is not a surrogate; `none`
where the decoder raises `UnicodeDecodeError`. -/
def utf8DecodeChar? : List UInt8 → Option (Char × List UInt8)
  | [] => none
  | b0 :: bs =>
    let n := b0.toNat
    if n < 0x80 then some (Char.ofNat n, bs)
    else if 0xc2 ≤ n ∧ n < 0xe0 then
      match bs with
      | b1 :: bs =>
        if isCont b1 then some (Char.ofNat (n % 32 * 64 + b1.toNat % 64), bs) else none
      | [] => none
    else if 0xe0 ≤ n ∧ n < 0xf0 then
      match bs with
      | b1 :: b2 :: bs =>
        let v := n % 16 * 4096 + b1.toNat % 64 * 64 + b2.toNat % 64
        if isCont b1 ∧ isCont b2 ∧ 0x800 ≤ v ∧ (v < 0xd800 ∨ 0xdfff < v) then
          some (Char.ofNat v, bs)
        else none
      | _ => none
    else if 0xf0 ≤ n ∧ n < 0xf5 then
      match bs with
      | b1 :: b2 :: b3 :: bs =>
        let v := n % 8 * 262144 + b1.toNat % 64 * 4096 + b2.toNat % 64 * 64 + b3.toNat % 64
        if isCont b1 ∧ isCont b2 ∧ isCont b3 ∧ 0x10000 ≤ v ∧ v < 0x110000 then
          some (Char.ofNat v, bs)
        else none
      | _ => none
    else none

/-- A character takes at least one byte. -/
theorem utf8DecodeChar?_length {bs rest : List UInt8} {c : Char}
    (h : utf8DecodeChar? bs = some (c, rest)) : rest.length < bs.length := by
  match bs with
  | [] => simp [utf8DecodeChar?] at h
  | b0 :: bs =>
    simp only [utf8DecodeChar?] at h
    split_ifs at h <;> (try split at h) <;> (try split_ifs at h) <;> simp_all <;> omega

/-- `bytes.decode('utf-8')`: characters one after the other, until the bytes run out. -/
def decodeUtf8 (bs : List UInt8) : Option (List Char) :=
  if bs = [] then some [] else
    match _h : utf8DecodeChar? bs with
    | none => none
    | some (c, rest) => (c :: ·) <$> decodeUtf8 rest
termination_by bs.length
decreasing_by exact utf8DecodeChar?_length ‹_›

/-- `-` and `_` in place of `+` and `/`: the translation of `urlsafe_b64encode`. -/
def toUrlsafe (c : Char) : Char := if c = '+' then '-' else if c = '/' then '_' else c

/-- `+` and `/` in place of `-` and `_`: the translation of `urlsafe_b64decode`. -/
def fromUrlsafe (c : Char) : Char := if c = '-' then '+' else if c = '_' then '/' else c

/-- `base64.urlsafe_b64encode(s)`, as characters. -/
def urlsafeB64encode (s : List UInt8) : List Char := (b2aBase64 s).map toUrlsafe

/-- `base64.urlsafe_b64decode(s)` on a `str`: ASCII only, translated back, then `a2b_base64`. -/
def urlsafeB64decode (s : String) : Option (List UInt8) :=
  if s.toList.all (·.toNat < 128) then a2bBase64Loop (s.toList.map fromUrlsafe) .init else none

/-- `encode_id(raw_id)`: `urlsafe_b64encode(raw_id.encode('utf-8')).decode('ascii')`. -/
def encodeId (raw_id : String) : String := ⟨urlsafeB64encode (encodeUtf8 raw_id)⟩

/-- A character of a path-safe token: an ASCII letter or digit, `-`, `_`, or the pad `=`. -/
def tokenChar (c : Char) : Bool := c.isAlphanum || c == '-' || c == '_' || c == '='

/-! ## UTF-8 round trip -/

/-- A byte below 256 is its own value. -/
@[simp] theorem toNat_ofNat_byte {n : Nat} (h : n < 256) : (UInt8.ofNat n).toNat = n :=
  UInt8.toNat_ofNat_of_lt h

/-- A character's code point is a scalar value: below `0x110000` and not a surrogate. -/
theorem toNat_scalar (c : Char) : c.toNat < 0xd800 ∨ (0xdfff < c.toNat ∧ c.toNat < 0x110000) :=
  c.valid

/-- The character decoded from a code point computed back from its bytes. -/
theorem ofNat_eq {c : Char} {v : Nat} (h : v = c.toNat) : Char.ofNat v = c := by
  rw [h, Char.ofNat_toNat]

/-- A continuation byte `0x80 + k` carries the six bits `k`. -/
theorem cont_byte {k : Nat} (hk : k < 64) :
    (UInt8.ofNat (0x80 + k)).toNat = 0x80 + k ∧ isCont (UInt8.ofNat (0x80 + k)) = true := by
  have e : (UInt8.ofNat (0x80 + k)).toNat = 0x80 + k := toNat_ofNat_byte (by omega)
  refine ⟨e, ?_⟩
  simp only [isCont, e, Bool.and_eq_true, decide_eq_true_eq]
  omega

/-- The decoder on a lead byte `0xc0 + a` and one continuation byte. -/
theorem utf8DecodeChar?_two {a k : Nat} (ha : 2 ≤ a ∧ a < 32) (hk : k < 64)
    (rest : List UInt8) :
    utf8DecodeChar? (UInt8.ofNat (0xc0 + a) :: UInt8.ofNat (0x80 + k) :: rest) =
      some (Char.ofNat (a * 64 + k), rest) := by
  have e0 : (UInt8.ofNat (0xc0 + a)).toNat = 0xc0 + a := toNat_ofNat_byte (by omega)
  obtain ⟨e1, c1⟩ := cont_byte hk
  have hv : (0xc0 + a) % 32 * 64 + (0x80 + k) % 64 = a * 64 + k := by omega
  simp only [utf8DecodeChar?, e0, e1, c1, hv, if_true]
  rw [if_neg (by omega), if_pos (by omega)]

/-- The decoder on a lead byte `0xe0 + a` and two continuation bytes. -/
theorem utf8DecodeChar?_three {a x y : Nat} (ha : a < 16) (hx : x < 64) (hy : y < 64)
    (hlo : 0x800 ≤ a * 4096 + x * 64 + y)
    (hs : a * 4096 + x * 64 + y < 0xd800 ∨ 0xdfff < a * 4096 + x * 64 + y) (rest : List UInt8) :
    utf8DecodeChar? (UInt8.ofNat (0xe0 + a) :: UInt8.ofNat (0x80 + x) :: UInt8.ofNat (0x80 + y) ::
      rest) = some (Char.ofNat (a * 4096 + x * 64 + y), rest) := by
  have e0 : (UInt8.ofNat (0xe0 + a)).toNat = 0xe0 + a := toNat_ofNat_byte (by omega)
  obtain ⟨e1, c1⟩ := cont_byte hx
  obtain ⟨e2, c2⟩ := cont_byte hy
  have hv : (0xe0 + a) % 16 * 4096 + (0x80 + x) % 64 * 64 + (0x80 + y) % 64 =
      a * 4096 + x * 64 + y := by omega
  simp only [utf8DecodeChar?, e0, e1, e2, c1, c2, hv]
  rw [if_neg (by omega), if_neg (by omega), if_pos (by omega),
    if_pos ⟨trivial, trivial, hlo, hs⟩]

/-- The decoder on a lead byte `0xf0 + a` and three continuation bytes. -/
theorem utf8DecodeChar?_four {a x y z : Nat} (ha : a < 5) (hx : x < 64) (hy : y < 64)
    (hz : z < 64) (hlo : 0x10000 ≤ a * 262144 + x * 4096 + y * 64 + z)
    (hhi : a * 262144 + x * 4096 + y * 64 + z < 0x110000) (rest : List UInt8) :
    utf8DecodeChar? (UInt8.ofNat (0xf0 + a) :: UInt8.ofNat (0x80 + x) :: UInt8.ofNat (0x80 + y) ::
      UInt8.ofNat (0x80 + z) :: rest) =
      some (Char.ofNat (a * 262144 + x * 4096 + y * 64 + z), rest) := by
  have e0 : (UInt8.ofNat (0xf0 + a)).toNat = 0xf0 + a := toNat_ofNat_byte (by omega)
  obtain ⟨e1, c1⟩ := cont_byte hx
  obtain ⟨e2, c2⟩ := cont_byte hy
  obtain ⟨e3, c3⟩ := cont_byte hz
  have hv : (0xf0 + a) % 8 * 262144 + (0x80 + x) % 64 * 4096 + (0x80 + y) % 64 * 64 +
      (0x80 + z) % 64 = a * 262144 + x * 4096 + y * 64 + z := by omega
  simp only [utf8DecodeChar?, e0, e1, e2, e3, c1, c2, c3, hv]
  rw [if_neg (by omega), if_neg (by omega), if_neg (by omega), if_pos (by omega),
    if_pos ⟨trivial, trivial, trivial, hlo, hhi⟩]

/-- Decoding the encoding of a character gives the character, and leaves the bytes after it. -/
theorem utf8DecodeChar?_utf8Char (c : Char) (rest : List UInt8) :
    utf8DecodeChar? (utf8Char c ++ rest) = some (c, rest) := by
  have hv := toNat_scalar c
  have h64 : ∀ n, n % 64 < 64 := fun n => Nat.mod_lt n (by decide)
  simp only [utf8Char]
  split_ifs with h1 h2 h3 <;> simp only [List.cons_append, List.nil_append]
  · have e : (UInt8.ofNat c.toNat).toNat = c.toNat := toNat_ofNat_byte (by omega)
    simp [utf8DecodeChar?, e, h1]
  · rw [utf8DecodeChar?_two (a := c.toNat / 64) ⟨by omega, by omega⟩ (h64 _),
      ofNat_eq (c := c)]
    omega
  · rw [utf8DecodeChar?_three (a := c.toNat / 4096) (x := c.toNat / 64 % 64) (by omega) (h64 _)
      (h64 _) (by omega) (by omega), ofNat_eq (c := c)]
    omega
  · rw [utf8DecodeChar?_four (a := c.toNat / 262144) (x := c.toNat / 4096 % 64)
      (y := c.toNat / 64 % 64) (by omega) (h64 _) (h64 _) (h64 _) (by omega) (by omega),
      ofNat_eq (c := c)]
    omega

/-- A decoder step: a first character and the bytes after it. -/
theorem decodeUtf8_cons {bs rest : List UInt8} {c : Char} (h : utf8DecodeChar? bs = some (c, rest)) :
    decodeUtf8 bs = (c :: ·) <$> decodeUtf8 rest := by
  have hb : bs ≠ [] := by rintro rfl; simp [utf8DecodeChar?] at h
  rw [decodeUtf8, if_neg hb]
  split <;> simp_all

/-- `bytes.decode('utf-8')` undoes `str.encode('utf-8')`. -/
theorem decodeUtf8_encodeUtf8 (s : String) : decodeUtf8 (encodeUtf8 s) = some s.toList := by
  unfold encodeUtf8
  induction s.toList with
  | nil => simp [decodeUtf8]
  | cons c cs ih => rw [List.flatMap_cons, decodeUtf8_cons (utf8DecodeChar?_utf8Char c _), ih]; rfl

/-! ## The token determines the identifier -/

/-- The translation to the URL-safe alphabet is undone on every character that `b2aBase64`
writes. -/
theorem map_fromUrlsafe_urlsafeB64encode (bs : List UInt8) :
    (urlsafeB64encode bs).map fromUrlsafe = b2aBase64 bs := by
  have hfix : ∀ c ∈ b2aBase64 bs, fromUrlsafe (toUrlsafe c) = c :=
    b2aBase64_forall _ (by decide) (by decide) bs
  rw [urlsafeB64encode, List.map_map]
  exact List.map_congr_left hfix |>.trans (List.map_id _)

/-- `urlsafe_b64decode` undoes `urlsafe_b64encode`. -/
theorem urlsafeB64decode_encode (bs : List UInt8) :
    urlsafeB64decode ⟨urlsafeB64encode bs⟩ = some bs := by
  have hall : ((urlsafeB64encode bs).all (·.toNat < 128)) = true := by
    have := b2aBase64_forall (fun c => (toUrlsafe c).toNat < 128) (by decide) (by decide) bs
    simpa [urlsafeB64encode] using this
  simp only [urlsafeB64decode, String.toList, hall, if_true, map_fromUrlsafe_urlsafeB64encode]
  simpa using a2bBase64Loop_b2aBase64 bs .init rfl

/-- Decoding a token as BaSyx does gives the identifier back. -/
theorem decode_encodeId (raw_id : String) :
    (urlsafeB64decode (encodeId raw_id)).bind decodeUtf8 = some raw_id.toList := by
  rw [encodeId, urlsafeB64decode_encode, Option.some_bind, decodeUtf8_encodeUtf8]

/-- Two identifiers with the same token are equal. -/
theorem encodeId_injective {a b : String} (h : encodeId a = encodeId b) : a = b := by
  have ha := decode_encodeId a
  rw [h, decode_encodeId b, Option.some.injEq] at ha
  exact String.ext ha.symm

/-- Tokens are equal exactly when the identifiers are. -/
@[simp] theorem encodeId_inj {a b : String} : encodeId a = encodeId b ↔ a = b :=
  ⟨encodeId_injective, congrArg encodeId⟩

/-! ## The token is path safe -/

/-- Every character of a token is a letter or digit, `-`, `_` or `=`: the URL-safe alphabet turns
the two letters `+` and `/` of the standard one into `-` and `_`. -/
theorem encodeId_tokenChar (raw_id : String) :
    ∀ c ∈ (encodeId raw_id).toList, tokenChar c = true := by
  have h := b2aBase64_forall (fun c => tokenChar (toUrlsafe c) = true) (by decide) (by decide)
    (encodeUtf8 raw_id)
  simpa [encodeId, urlsafeB64encode] using h

end TwinExporter

import TwinExporter.Canonical
import TwinExporter.Gate

/-!
# The signer and the gate agree

`sign_json_payload` of `sign.py` and `verify_feature_signature` of `exporter.py` agree exactly once
RSA-PSS with SHA-256 is an ideal signature scheme (`IdealScheme`): the gate accepts a bundle whose
`signature` is `sign_json_payload(p)` exactly when the bundle without its `signature` is `p` up to
the order of the entries of its dictionaries (`verifyFeatureSignature_signed`). Both sides sign the
UTF-8 bytes of `json.dumps(payload, sort_keys=True)`, so this rests on three facts about the
encodings: Base64 decoding undoes Base64 encoding (`b64decode_b64encode`), UTF-8 decoding undoes
UTF-8 encoding (`decodeUtf8_encodeUtf8`), and the canonical text determines the mapping
(`dumps_eq_iff`).

The gate rejects tampering: a bundle that carries the signature of a payload and changes the value
of one of its keys does not pass (`verifyFeatureSignature_changed`), as the valve's properties with
`open` flipped do not (`verifyFeatureSignature_changed_valve`).
-/

namespace TwinExporter

/-- RSA-PSS with SHA-256 as an ideal signature scheme, for the key pair whose public half is stored
at `public_key_path`. -/
structure IdealScheme (host : Host) (public_key_path : String) where
  /-- The public key that `load_pem_public_key` reads. -/
  key : List UInt8
  loads : host.publicKey public_key_path = some key
  /-- `Signs m σ`: a run of the signer with the private key on message `m` can output `σ`; PSS
  draws a fresh salt on every run. -/
  Signs : List UInt8 → List UInt8 → Prop
  /-- A signature verifies for a message exactly when the signer can output it on that message. -/
  verify_iff : ∀ m σ, host.verify key σ m = true ↔ Signs m σ
  /-- No signature is an output on two messages. -/
  message_unique : ∀ {m m' σ}, Signs m σ → Signs m' σ → m = m'
  /-- A signature has the length of the modulus, so it is never empty. -/
  ne_nil : ∀ {m σ}, Signs m σ → σ ≠ []

/-- The Base64 of a non-empty text is not empty. -/
theorem b2aBase64_ne_nil {bs : List UInt8} (h : bs ≠ []) : b2aBase64 bs ≠ [] := by
  rcases bs with _ | ⟨a, _ | ⟨b, _ | ⟨c, rest⟩⟩⟩ <;> simp_all [b2aBase64]

/-- UTF-8 encoding determines the text. -/
theorem encodeUtf8_injective : Function.Injective encodeUtf8 := fun a b h => by
  have ha := decodeUtf8_encodeUtf8 a
  rw [h, decodeUtf8_encodeUtf8, Option.some.injEq] at ha
  exact String.ext ha.symm

/-- The bytes that both sides sign determine the payload up to the order of its entries. -/
theorem payloadBytes_eq_iff {p q : Dict JsonValue} (hp : (JsonValue.object p.entries).loadable = true)
    (hq : (JsonValue.object q.entries).loadable = true) :
    payloadBytes p = payloadBytes q ↔ (JsonValue.object p.entries).Reorders (.object q.entries) := by
  rw [← dumps_eq_iff hp hq]
  exact ⟨fun h => congrArg String.data (encodeUtf8_injective h), fun h => by rw [payloadBytes, h]; rfl⟩

/-- Removing a key keeps a dictionary loadable. -/
theorem loadable_erase {d : Dict JsonValue} (hd : (JsonValue.object d.entries).loadable = true)
    (key : String) : (JsonValue.object (d.erase key).entries).loadable = true := by
  obtain ⟨-, hvals⟩ := loadable_object.mp hd
  refine loadable_object.mpr ⟨(d.erase key).nodup, fun e he => hvals e ?_⟩
  simp only [Dict.erase, Dict.entries_filterKeys, List.mem_filter] at he
  exact he.1

/-- The UTF-8 encoding of a character is at least one byte. -/
theorem utf8Char_ne_nil (c : Char) : utf8Char c ≠ [] := by
  dsimp only [utf8Char]
  split_ifs <;> simp

/-- The bytes that both sides sign are never empty: the text opens a dictionary. -/
theorem payloadBytes_ne_nil (p : Dict JsonValue) : payloadBytes p ≠ [] := by
  obtain ⟨c, t, e⟩ : ∃ c t, dumps (.object p.entries) = c :: t := by
    rw [dumps, canon_object]
    rcases sortItems _ with _ | ⟨⟨k, v⟩, kvs⟩ <;> exact ⟨_, _, rfl⟩
  simp only [payloadBytes, encodeUtf8, String.toList, e, List.flatMap_cons]
  exact fun h => utf8Char_ne_nil c (List.append_eq_nil.mp h).1

/-- Setting a key to a value that loads keeps a dictionary loadable. -/
theorem loadable_insert {d : Dict JsonValue} (hd : (JsonValue.object d.entries).loadable = true)
    {key : String} {v : JsonValue} (hv : v.loadable = true) :
    (JsonValue.object (d.insert key v).entries).loadable = true := by
  obtain ⟨-, hvals⟩ := loadable_object.mp hd
  refine loadable_object.mpr ⟨(d.insert key v).nodup, fun e he => ?_⟩
  rcases Dict.mem_entries_insert he with he | rfl
  · exact hvals e he
  · exact hv

/-! ## What the simulators send -/

/-- `payload["signature"] = sign_json_payload(payload)`: the properties that `Valve.open`,
`Valve.close` and `Notifier.notify` send. -/
def signPayload (sign : List UInt8 → List UInt8) (payload : Dict JsonValue) : Dict JsonValue :=
  payload.insert "signature" (.str (signJsonPayload sign payload))

/-- `payload = {"open": self._open}; payload["timestamp"] = datetime.now().isoformat()`, as
`Valve.open` and `Valve.close` build it. -/
def valvePayload (isOpen : Bool) (timestamp : String) : Dict JsonValue :=
  (⟨[("open", .bool isOpen)], by simp⟩ : Dict JsonValue).insert "timestamp" (.str timestamp)

/-- `msg["timestamp"] = datetime.now().isoformat()`, as `Notifier.notify` adds it to the message
of `get_msg_to_notify`. -/
def notifierPayload (msg : Dict JsonValue) (timestamp : String) : Dict JsonValue :=
  msg.insert "timestamp" (.str timestamp)

/-- The valve's payload is `open`, then `timestamp`. -/
theorem valvePayload_entries (isOpen : Bool) (timestamp : String) :
    (valvePayload isOpen timestamp).entries = [("open", .bool isOpen), ("timestamp", .str timestamp)] := by
  rw [valvePayload, Dict.entries_insert_of_not_mem (by simp [Dict.keys])]
  rfl

/-- The valve's payload has no `signature` before it is signed. -/
theorem valvePayload_keys (isOpen : Bool) (timestamp : String) :
    "signature" ∉ (valvePayload isOpen timestamp).keys := by
  simp [Dict.keys, valvePayload_entries]

/-- The payload without its signature is what was signed. -/
theorem erase_signPayload {sign : List UInt8 → List UInt8} {p : Dict JsonValue} (hns : "signature" ∉ p.keys) :
    ((signPayload sign p).erase "signature").entries = p.entries := by
  have hne : ∀ e ∈ p.entries, e.1 ≠ "signature" := fun e he h =>
    hns (List.mem_map.mpr ⟨e, he, h⟩)
  simp only [signPayload, Dict.erase, Dict.entries_filterKeys,
    Dict.entries_insert_of_not_mem hns, List.filter_append]
  rw [List.filter_eq_self.mpr fun e he => by simpa using hne e he]
  simp

/-- What the gate checks of a bundle whose `signature` is the Base64 of a non-empty `σ`: that `σ`
is a signature of the bytes of the bundle without its `signature`. -/
theorem verifyFeatureSignature_iff_signs {host : Host} {public_key_path : String}
    (S : IdealScheme host public_key_path) {σ : List UInt8} (hσ : σ ≠ []) {B : Dict JsonValue}
    (hsig : B.get? "signature" = some (.str (b64encode σ))) :
    verifyFeatureSignature host ⟨some B⟩ public_key_path = true ↔
      S.Signs (payloadBytes (B.erase "signature")) σ := by
  have htruthy : (JsonValue.str (b64encode σ)).truthy = true := by
    simpa [JsonValue.truthy, b64encode, String.ext_iff] using b2aBase64_ne_nil hσ
  have hdec : b64decodeValue (.str (b64encode σ)) = some σ := b64decode_b64encode σ
  simp only [verifyFeatureSignature, hsig, htruthy, Bool.not_true, Bool.false_eq_true, if_false,
    hdec, S.loads, S.verify_iff]

/-- The gate accepts a bundle whose `signature` is `sign_json_payload(p)` exactly when the bundle
without its `signature` is `p` up to the order of the entries of its dictionaries. -/
theorem verifyFeatureSignature_signed {host : Host} {public_key_path : String}
    (S : IdealScheme host public_key_path) {sign : List UInt8 → List UInt8} {p B : Dict JsonValue}
    (hsign : S.Signs (payloadBytes p) (sign (payloadBytes p)))
    (hp : (JsonValue.object p.entries).loadable = true)
    (hB : (JsonValue.object B.entries).loadable = true)
    (hsig : B.get? "signature" = some (.str (signJsonPayload sign p))) :
    verifyFeatureSignature host ⟨some B⟩ public_key_path = true ↔
      (JsonValue.object (B.erase "signature").entries).Reorders (.object p.entries) := by
  rw [verifyFeatureSignature_iff_signs S (S.ne_nil hsign) hsig,
    ← payloadBytes_eq_iff (loadable_erase hB _) hp]
  exact ⟨fun h => S.message_unique h hsign, fun h => h ▸ hsign⟩

/-- The gate is sound for an ideal scheme: it accepts a feature only when its properties carry a
`signature` text that decodes to a signature the key made on the other properties. -/
theorem verifyFeatureSignature_sound {host : Host} {public_key_path : String}
    (S : IdealScheme host public_key_path) {d : Feature}
    (h : verifyFeatureSignature host d public_key_path = true) :
    ∃ B sig σ, d.properties = some B ∧ B.get? "signature" = some (.str sig) ∧
      b64decode sig = some σ ∧ S.Signs (payloadBytes (B.erase "signature")) σ := by
  unfold verifyFeatureSignature at h
  split at h
  · cases h
  rename_i B hB
  split at h
  · cases h
  rename_i sv hsv
  split_ifs at h
  split at h
  · cases h
  rename_i σ hσ
  rw [S.loads] at h
  cases sv <;> simp only [b64decodeValue, reduceCtorEq] at hσ
  exact ⟨B, _, σ, hB, hsv, hσ, (S.verify_iff _ _).mp h⟩

/-- A host on which the signature of a message is the message itself, and the key always loads:
an ideal scheme, though not a secure one. -/
def echoHost : Host := ⟨fun _ => none, fun _ => "", fun _ => some [], fun _ σ m => σ == m && !m.isEmpty⟩

/-- The ideal scheme of `echoHost`. -/
def echoScheme : IdealScheme echoHost "public_key.pem" where
  key := []
  loads := rfl
  Signs m σ := σ = m ∧ m ≠ []
  verify_iff m σ := by simp [echoHost]
  message_unique h h' := h.1.symm.trans h'.1
  ne_nil h := h.1 ▸ h.2

/-- The valve's signed properties for `open: true`, under the echo scheme. -/
theorem verifyFeatureSignature_signed_valve :
    echoScheme.Signs (payloadBytes (valvePayload true "t")) (id (payloadBytes (valvePayload true "t"))) ∧
      (JsonValue.object (valvePayload true "t").entries).loadable = true ∧
      (JsonValue.object (signPayload id (valvePayload true "t")).entries).loadable = true ∧
      (signPayload id (valvePayload true "t")).get? "signature" =
        some (.str (signJsonPayload id (valvePayload true "t"))) ∧
      (verifyFeatureSignature echoHost ⟨some (signPayload id (valvePayload true "t"))⟩
          "public_key.pem" = true ↔
        (JsonValue.object ((signPayload id (valvePayload true "t")).erase "signature").entries).Reorders
          (.object (valvePayload true "t").entries)) := by
  have hs : echoScheme.Signs (payloadBytes (valvePayload true "t"))
      (id (payloadBytes (valvePayload true "t"))) := ⟨rfl, payloadBytes_ne_nil _⟩
  have hl : (JsonValue.object (valvePayload true "t").entries).loadable = true := by
    simp [valvePayload_entries, JsonValue.loadable]
  have hl' : (JsonValue.object (signPayload id (valvePayload true "t")).entries).loadable = true :=
    loadable_insert hl rfl
  have hg : (signPayload id (valvePayload true "t")).get? "signature" =
      some (.str (signJsonPayload id (valvePayload true "t"))) :=
    Dict.get?_of_mem (by simp [signPayload, Dict.entries_insert_of_not_mem (valvePayload_keys _ _)])
  exact ⟨hs, hl, hl', hg, verifyFeatureSignature_signed echoScheme hs hl hl' hg⟩

/-! ## Tampering -/

/-- The gate rejects tampering. A bundle that carries the signature that `sign_json_payload` made
for `p`, with a run that an ideal scheme accepts, and holds under a key of `p` a value that is no
reordering of the value in `p`, does not pass, whatever its other entries. -/
theorem verifyFeatureSignature_changed {host : Host} {public_key_path : String}
    (S : IdealScheme host public_key_path) {sign : List UInt8 → List UInt8} {p B : Dict JsonValue}
    (hsign : S.Signs (payloadBytes p) (sign (payloadBytes p)))
    (hp : (JsonValue.object p.entries).loadable = true)
    (hB : (JsonValue.object B.entries).loadable = true)
    (hsig : B.get? "signature" = some (.str (signJsonPayload sign p))) {k : String}
    {v v' : JsonValue} (hk : k ≠ "signature") (hv : B.get? k = some v) (hv' : p.get? k = some v')
    (hne : ¬ v.Reorders v') :
    verifyFeatureSignature host ⟨some B⟩ public_key_path = false := by
  by_contra hacc
  have hsigned := (verifyFeatureSignature_iff_signs S (S.ne_nil hsign) hsig).mp
    (by simpa using hacc)
  have hre := (payloadBytes_eq_iff (loadable_erase hB _) hp).mp (S.message_unique hsigned hsign)
  have hmem : (k, v) ∈ (B.erase "signature").entries := by
    simpa [Dict.erase, hk] using Dict.mem_of_get? hv
  obtain ⟨v'', hm, hr⟩ := hre.mem_object (loadable_erase hB _) hmem
  rw [← Dict.get?_eq_some_iff, hv', Option.some.injEq] at hm
  exact hne (hm ▸ hr)

/-- What `Valve.close` sends, carrying the signature that `Valve.open` made at the same
timestamp: `open` flipped under another payload's signature. -/
def flippedValve : Dict JsonValue :=
  (valvePayload false "t").insert "signature" (.str (signJsonPayload id (valvePayload true "t")))

/-- Under the echo scheme, the gate rejects the valve's properties with `open` flipped and the
signature of `open: true` kept. -/
theorem verifyFeatureSignature_changed_valve :
    echoScheme.Signs (payloadBytes (valvePayload true "t"))
        (id (payloadBytes (valvePayload true "t"))) ∧
      (JsonValue.object (valvePayload true "t").entries).loadable = true ∧
      (JsonValue.object flippedValve.entries).loadable = true ∧
      flippedValve.get? "signature" = some (.str (signJsonPayload id (valvePayload true "t"))) ∧
      flippedValve.get? "open" = some (.bool false) ∧
      (valvePayload true "t").get? "open" = some (.bool true) ∧
      ¬ (JsonValue.bool false).Reorders (.bool true) ∧
      verifyFeatureSignature echoHost ⟨some flippedValve⟩ "public_key.pem" = false := by
  have hs : echoScheme.Signs (payloadBytes (valvePayload true "t"))
      (id (payloadBytes (valvePayload true "t"))) := ⟨rfl, payloadBytes_ne_nil _⟩
  have hl : ∀ b, (JsonValue.object (valvePayload b "t").entries).loadable = true := fun b => by
    simp [valvePayload_entries, JsonValue.loadable]
  have hB : (JsonValue.object flippedValve.entries).loadable = true :=
    loadable_insert (hl false) rfl
  have hentries : flippedValve.entries = (valvePayload false "t").entries ++
      [("signature", .str (signJsonPayload id (valvePayload true "t")))] :=
    Dict.entries_insert_of_not_mem (valvePayload_keys _ _) _
  have hsig :
      flippedValve.get? "signature" = some (.str (signJsonPayload id (valvePayload true "t"))) :=
    Dict.get?_of_mem (by simp [hentries])
  have hv : flippedValve.get? "open" = some (.bool false) :=
    Dict.get?_of_mem (by simp [hentries, valvePayload_entries])
  have hv' : (valvePayload true "t").get? "open" = some (.bool true) :=
    Dict.get?_of_mem (by simp [valvePayload_entries])
  have hne : ¬ (JsonValue.bool false).Reorders (.bool true) := fun h => by
    simpa [canon] using (canon_eq_of_reorders h rfl).1
  exact ⟨hs, hl true, hB, hsig, hv, hv', hne,
    verifyFeatureSignature_changed echoScheme hs (hl true) hB hsig (by decide) hv hv' hne⟩

end TwinExporter

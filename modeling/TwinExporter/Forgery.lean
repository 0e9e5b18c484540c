import TwinExporter.Downtime
import TwinExporter.Twin

/-!
# The attack server's features reach no element

`attack_2.py` runs a fake Ditto for the exporter: `GET /things` lists the two things of
`MOCK_THINGS`, and `GET /things/{thing_id}/features` answers each of their features with a random
value for each property and a `signature` that is the Base64 text of 256 random bytes. The server's
draws are parameters here (`Draws`), and every theorem holds for every draw.

A feature of the server has the shape of a signed payload, with the random bytes in place of the
signer's output (`mockProperties_eq`). So under an ideal scheme the gate accepts it only when the key
made those bytes as a signature of the drawn values (`verifyFeatureSignature_mock`), and a cycle with
the gate on that reads the server writes no value into BaSyx (`cycle_writes_nothing_forged`).

It does not leave BaSyx as it was. In the feature loop the gate comes after `create_basyx_shell` and
`create_basyx_submodel`, so a feature that the policy exports and whose signature fails keeps a
present submodel, with the elements that the cleanup pass left and no other
(`cycle_keeps_rejected`): from an empty BaSyx, the server's things appear as empty twins.
-/

namespace TwinExporter

/-! ## The attack server -/

/-- `MOCK_THINGS`: each thing id, with its features and their property names. -/
def mockThings : List (String × List (String × List String)) :=
  [("openplc:103b3864-923d-49d0-8f1c-8c6810a025c3", [("coughsyrupvalve", ["open"])]),
    ("hmi:bbf883ed-b192-4fb2-b432-41664e91d059", [("coughsyrupvalve",
      ["input_level", "input_blocked", "output_level", "output_blocked", "sender"])])]

/-- What the server draws when it answers for the features of a thing. -/
structure Draws where
  /-- `get_random_property_value(prop_name)` for a property of a feature of a thing. -/
  value : String → String → String → JsonValue
  /-- `secrets.token_bytes(256)` for a feature of a thing. -/
  token : String → String → List UInt8

/-- `generate_random_signature()`: the Base64 text of the drawn bytes. -/
def generateRandomSignature (random_bytes : List UInt8) : String := b64encode random_bytes

/-- `properties[prop_name] = get_random_property_value(prop_name)` for each property name, in
order, from `{}`. -/
def mockPayload (value : String → JsonValue) (property_names : List String) : Dict JsonValue :=
  property_names.foldl (fun d p => d.insert p (value p)) .empty

/-- The `properties` of a feature: the drawn values, then
`properties["signature"] = generate_random_signature()`. -/
def mockProperties (value : String → JsonValue) (random_bytes : List UInt8)
    (property_names : List String) : Dict JsonValue :=
  (mockPayload value property_names).insert "signature"
    (.str (generateRandomSignature random_bytes))

/-- `get_features(thing_id)`: `features[feature_id] = {"properties": properties}` for each feature of
the thing of `MOCK_THINGS`, and `none` for another id, which the server answers with `404`. -/
def getFeatures (r : Draws) (thing_id : String) : Option (Dict Feature) :=
  (mockThings.lookup thing_id).map fun features =>
    features.foldl (fun d e =>
      d.insert e.1 ⟨some (mockProperties (r.value thing_id e.1) (r.token thing_id e.1) e.2)⟩) .empty

/-- `get_things()`: the `thingId` of each thing of `MOCK_THINGS`. -/
def getThings : List Thing := mockThings.map fun e => ⟨some e.1⟩

/-- The attack server as a source of the exporter, at any URL and with any header. -/
def attackSnapshot (r : Draws) : Snapshot :=
  ⟨fun _ _ => some getThings, fun _ _ thing_id => getFeatures r thing_id⟩

/-! ## What the server reports -/

/-- The value that `lookup` finds is one of the list's. -/
theorem mem_of_lookup_eq_some {β : Type} {a : String} {b : β} :
    ∀ {l : List (String × β)}, l.lookup a = some b → (a, b) ∈ l
  | [], h => by simp at h
  | (k, v) :: l, h => by
    by_cases hk : a = k
    · subst hk
      simp only [List.lookup_cons, beq_self_eq_true, Option.some.injEq] at h
      subst h
      exact List.mem_cons_self _ _
    · have hb : (a == k) = false := by simpa using hk
      simp only [List.lookup_cons, hb] at h
      exact List.mem_cons_of_mem _ (mem_of_lookup_eq_some h)

/-- Every entry of a dictionary built by assignments is an entry of the start or an assignment. -/
theorem Dict.mem_entries_foldl_insert {α β : Type} (key : β → String) (val : β → α) :
    ∀ (xs : List β) (d : Dict α) {e : String × α},
      e ∈ (xs.foldl (fun d x => d.insert (key x) (val x)) d).entries →
        e ∈ d.entries ∨ ∃ x ∈ xs, e = (key x, val x)
  | [], _, _, h => .inl h
  | x :: xs, d, _, h => by
    rcases Dict.mem_entries_foldl_insert key val xs _ h with h | ⟨y, hy, rfl⟩
    · rcases Dict.mem_entries_insert h with h | rfl
      · exact .inl h
      · exact .inr ⟨x, List.mem_cons_self _ _, rfl⟩
    · exact .inr ⟨y, List.mem_cons_of_mem _ hy, rfl⟩

/-- The drawn values carry only the feature's property names. -/
theorem mem_keys_mockPayload {value : String → JsonValue} {property_names : List String}
    {k : String} (h : k ∈ (mockPayload value property_names).keys) : k ∈ property_names := by
  obtain ⟨e, he, rfl⟩ := List.mem_map.mp h
  rcases Dict.mem_entries_foldl_insert id value property_names _ he with he | ⟨x, hx, rfl⟩
  · cases he
  · exact hx

/-- A feature of the server is the payload of its drawn values signed by a run that outputs the
drawn bytes. -/
theorem mockProperties_eq (value : String → JsonValue) (random_bytes : List UInt8)
    (property_names : List String) :
    mockProperties value random_bytes property_names =
      signPayload (fun _ => random_bytes) (mockPayload value property_names) := rfl

/-- Under an ideal scheme, the gate accepts a feature of the server only when the key made its
random bytes as a signature of its drawn values. -/
theorem verifyFeatureSignature_mock {host : Host} {public_key_path : String}
    (S : IdealScheme host public_key_path) {value : String → JsonValue} {random_bytes : List UInt8}
    {property_names : List String} (hns : "signature" ∉ property_names)
    (h : verifyFeatureSignature host ⟨some (mockProperties value random_bytes property_names)⟩
      public_key_path = true) :
    S.Signs (payloadBytes (mockPayload value property_names)) random_bytes := by
  have hkeys : "signature" ∉ (mockPayload value property_names).keys :=
    fun hk => hns (mem_keys_mockPayload hk)
  have hg : (mockProperties value random_bytes property_names).get? "signature" =
      some (.str (b64encode random_bytes)) := Dict.get?_of_mem (by
    simp [mockProperties, generateRandomSignature, Dict.entries_insert_of_not_mem hkeys])
  obtain ⟨B, sig, σ, hB, hsig, hσ, hsigns⟩ := verifyFeatureSignature_sound S h
  cases hB
  rw [hg, Option.some.injEq, JsonValue.str.injEq] at hsig
  subst hsig
  rw [b64decode_b64encode, Option.some.injEq] at hσ
  subst hσ
  rwa [mockProperties_eq, payloadBytes, erase_signPayload hkeys] at hsigns

/-- No feature of `MOCK_THINGS` has a property named `signature`. -/
theorem mockThings_names {t f : String} {features : List (String × List String)}
    {property_names : List String} (ht : (t, features) ∈ mockThings)
    (hf : (f, property_names) ∈ features) : "signature" ∉ property_names := by
  simp only [mockThings, List.mem_cons, Prod.mk.injEq, List.mem_singleton, List.not_mem_nil,
    or_false] at ht
  rcases ht with ⟨-, rfl⟩ | ⟨-, rfl⟩ <;> simp only [List.mem_singleton, Prod.mk.injEq] at hf <;>
    rw [hf.2] <;> decide

/-- What the attack server reports: a thing of `MOCK_THINGS`, and one of its features with the
values and bytes drawn for it. -/
theorem attackSnapshot_reports {r : Draws} {s : SourceRule} {th : Thing} {fid : String}
    {d : Feature} (h : (attackSnapshot r).Reports s th fid d) :
    ∃ t features property_names, (t, features) ∈ mockThings ∧ (fid, property_names) ∈ features ∧
      th.thingId = some t ∧ d = ⟨some (mockProperties (r.value t fid) (r.token t fid) property_names)⟩ := by
  obtain ⟨⟨ths, hT, hth⟩, feats, hF, he⟩ := h
  cases hT
  obtain ⟨⟨t, features⟩, ht, rfl⟩ := List.mem_map.mp hth
  obtain ⟨features', hl, rfl⟩ := Option.map_eq_some'.mp hF
  have hmem := mem_of_lookup_eq_some hl
  rcases Dict.mem_entries_foldl_insert Prod.fst _ features' _ he with he | ⟨⟨f, names⟩, hf, he⟩
  · cases he
  · simp only [Prod.mk.injEq] at he
    obtain ⟨rfl, rfl⟩ := he
    exact ⟨t, features', names, hmem, hf, rfl, rfl⟩

/-- Every fetch from the attack server succeeds: it lists the things of `MOCK_THINGS`, and it
knows the features of each. -/
theorem attackSnapshot_serves (r : Draws) (config : Config) : (attackSnapshot r).Serves config :=
  fun _ _ => ⟨_, rfl, by simp [getThings, mockThings, attackSnapshot, getFeatures]⟩

/-- Every thing of the attack server has an id. -/
theorem attackSnapshot_identified (r : Draws) (config : Config) :
    (attackSnapshot r).Identified config := by
  rintro s - th ⟨ths, hT, hth⟩
  cases hT
  obtain ⟨e, -, rfl⟩ := List.mem_map.mp hth
  rfl

/-! ## A cycle against the attack server -/

section Cycle

variable {config : Config} {snap : Snapshot} {host : Host} {now : Nat}

/-- With the signature gate on and an ideal scheme for the exporter's key, a cycle that reads the
attack server writes no value into BaSyx: an element that holds a value after the cycle held it
before, for every draw whose random bytes the key did not make as a signature of the values drawn
with them. -/
theorem cycle_writes_nothing_forged {public_key_path : String}
    (S : IdealScheme host public_key_path) (hv : config.verifySignatures = true)
    (hpath : config.publicKeyPath = public_key_path) {r : Draws}
    (hr : ∀ t features, (t, features) ∈ mockThings → ∀ f property_names,
      (f, property_names) ∈ features →
        ¬ S.Signs (payloadBytes (mockPayload (r.value t f) property_names)) (r.token t f))
    (w : World) {k p v : String}
    (h : (cycle config (attackSnapshot r) host now w).store.value k p = some v) :
    w.store.value k p = some v := by
  rcases cycle_value_origin h with h | ⟨s, hs, th, t, fid, d, sel, x, hrep, ht, hres, hk, ⟨hq, hx, hgate⟩, hval⟩
  · exact h
  obtain ⟨t', features, names, hmem, hf, ht', rfl⟩ := attackSnapshot_reports hrep
  obtain rfl : t' = t := Option.some.inj (ht'.symm.trans ht)
  exact absurd (verifyFeatureSignature_mock S (mockThings_names hmem hf) (hpath ▸ hgate hv))
    (hr t' features hmem fid names hf)

variable {s : SourceRule} {t f : String}

/-- The gate keeps no submodel out of BaSyx. With one source rule and one listing of thing `t`,
whose feature `f` no other thing reports under `t:f`, a cycle that exports `f` with the gate on and
rejecting its bundle leaves the submodel `t:f` present, with the elements that the cleanup pass
left: it is created empty when it was missing, and nothing is written into it. -/
theorem cycle_keeps_rejected (hsrc : config.sourceRules = [s])
    (hc : config.WellTimed host.fromisoformat) (hs : snap.Serves config)
    (hid : snap.Identified config) (hiso : snap.Isolates s t f) (hb : config.basyxConfigured = true)
    (hone : ((snap.things s.url s.auth).getD []).countP (·.thingId == some t) = 1)
    {d : Feature} (hd : (snap.features s.url s.auth t).bind (·.get? f) = some d)
    {sel : List String} (hres : resolve config host now s.url (some t) f = .found sel)
    (hv : config.verifySignatures = true)
    (hgate : verifyFeatureSignature host d config.publicKeyPath = false) (w : World) :
    (cycle config snap host now w).store.submodels (encodeId (submodelId t f)) =
      some ((cleanSlot config host now s.url t f (some d)
        (w.store.submodels (encodeId (submodelId t f)))).getD .empty) := by
  have hlisted : ((snap.things s.url s.auth).getD []).any (·.thingId == some t) := by
    rw [List.any_eq_true, ← List.countP_pos_iff, hone]
    exact Nat.one_pos
  have hfeat : snap.feature? s t f = some d := by simp [Snapshot.feature?, hlisted, hd]
  rw [cycle_slot hsrc hc hs hid hiso w, if_pos hb, hone, Function.iterate_one, hfeat, hd]
  simp only [featureSlot, hres]
  rw [exportSubmodel, if_pos (by simp [hv, hgate])]

end Cycle

/-! ## The server against the exporter's policy for every feature -/

/-- `wildcardPolicy` with the signature gate on. -/
def signedWildcardPolicy : Config := { wildcardPolicy with verify_signatures := some true }

/-- A draw of `true` for every property and 256 zero bytes for every signature. -/
def zeroDraws : Draws := ⟨fun _ _ _ => .bool true, fun _ _ => List.replicate 256 0⟩

/-- `json.dumps` of a dictionary starts with `{`, so its bytes start with `0x7b`. -/
theorem payloadBytes_head (p : Dict JsonValue) : ∃ rest, payloadBytes p = 123 :: rest := by
  obtain ⟨cs, h⟩ : ∃ cs, dumps (.object p.entries) = '{' :: cs := by
    simp only [dumps, canon]
    cases sortItems (canonEntries p.entries) with
    | nil => exact ⟨_, rfl⟩
    | cons e es => exact ⟨_, rfl⟩
  exact ⟨_, by rw [payloadBytes, encodeUtf8, String.toList, h, List.flatMap_cons]; rfl⟩

/-- On `valveScheme`, 256 zero bytes are no signature of a JSON payload. -/
theorem zeros_not_signed (p : Dict JsonValue) :
    ¬ valveScheme.Signs (payloadBytes p) (List.replicate 256 0) := fun h => by
  obtain ⟨rest, hp⟩ := payloadBytes_head p
  have := congrArg List.head? (h.1.trans hp)
  simp at this

/-- With zero bytes for every token, a round on the attack server's things from an empty
BaSyx writes no value. -/
theorem cycle_writes_nothing_forged_zero :
    (∀ t features, (t, features) ∈ mockThings → ∀ f property_names,
      (f, property_names) ∈ features →
        ¬ valveScheme.Signs (payloadBytes (mockPayload (zeroDraws.value t f) property_names))
          (zeroDraws.token t f)) ∧
      ∀ k p v, (cycle signedWildcardPolicy (attackSnapshot zeroDraws) valveHost 0
          ⟨.empty, []⟩).store.value k p = some v → Store.empty.value k p = some v :=
  have hr : ∀ t features, (t, features) ∈ mockThings → ∀ f property_names,
      (f, property_names) ∈ features →
        ¬ valveScheme.Signs (payloadBytes (mockPayload (zeroDraws.value t f) property_names))
          (zeroDraws.token t f) := fun _ _ _ _ _ _ => zeros_not_signed _
  ⟨hr, fun _ _ _ h => cycle_writes_nothing_forged valveScheme (by rfl) (by rfl) hr _ h⟩

/-- The valve of `MOCK_THINGS` is the only thing of the server with a feature under its submodel
id. -/
theorem attackSnapshot_isolates (r : Draws) :
    (attackSnapshot r).Isolates wildcardRule "openplc:103b3864-923d-49d0-8f1c-8c6810a025c3"
      "coughsyrupvalve" := by
  intro th t' f' d hrep ht hk
  obtain ⟨t, features, names, hmem, hf, ht', -⟩ := attackSnapshot_reports hrep
  obtain rfl : t = t' := Option.some.inj (ht'.symm.trans ht)
  simp only [mockThings, List.mem_cons, Prod.mk.injEq, List.mem_singleton, List.not_mem_nil,
    or_false] at hmem
  rcases hmem with ⟨rfl, -⟩ | ⟨rfl, rfl⟩
  · rfl
  · simp only [List.mem_singleton, Prod.mk.injEq] at hf
    rw [hf.1] at hk
    exact absurd hk (by decide)

/-- With zero bytes for the valve's token, the gate rejects its properties, and the round
still leaves its submodel present with what the cleanup pass left. -/
theorem cycle_keeps_rejected_valve :
    verifyFeatureSignature valveHost
        ⟨some (mockProperties (zeroDraws.value "openplc:103b3864-923d-49d0-8f1c-8c6810a025c3"
          "coughsyrupvalve") (List.replicate 256 0) ["open"])⟩ "public_key.pem" = false ∧
      (cycle signedWildcardPolicy (attackSnapshot zeroDraws) valveHost 0 ⟨.empty, []⟩).store.submodels
          (encodeId (submodelId "openplc:103b3864-923d-49d0-8f1c-8c6810a025c3" "coughsyrupvalve")) =
        some ((cleanSlot signedWildcardPolicy valveHost 0 wildcardRule.url
          "openplc:103b3864-923d-49d0-8f1c-8c6810a025c3" "coughsyrupvalve"
          (some ⟨some (mockProperties (zeroDraws.value "openplc:103b3864-923d-49d0-8f1c-8c6810a025c3"
            "coughsyrupvalve") (List.replicate 256 0) ["open"])⟩) none).getD .empty) := by
  have hgate : verifyFeatureSignature valveHost
      ⟨some (mockProperties (zeroDraws.value "openplc:103b3864-923d-49d0-8f1c-8c6810a025c3"
        "coughsyrupvalve") (List.replicate 256 0) ["open"])⟩ "public_key.pem" = false :=
    Bool.eq_false_iff.mpr fun h =>
      zeros_not_signed _ (verifyFeatureSignature_mock valveScheme (by decide) h)
  have hc : signedWildcardPolicy.WellTimed valveHost.fromisoformat := wildcardPolicy_wellTimed
  have hres : resolve signedWildcardPolicy valveHost 0 wildcardRule.url
      (some "openplc:103b3864-923d-49d0-8f1c-8c6810a025c3") "coughsyrupvalve" = .found ["*"] := rfl
  exact ⟨hgate, cycle_keeps_rejected (by rfl) hc (attackSnapshot_serves _ _)
    (attackSnapshot_identified _ _) (attackSnapshot_isolates _) (by rfl) (by decide) (by rfl) hres
    (by rfl) hgate ⟨.empty, []⟩⟩

end TwinExporter

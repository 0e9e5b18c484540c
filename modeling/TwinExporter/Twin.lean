import TwinExporter.Attack

/-!
# The twin holds what the simulators sign

The simulators of the virtual factory send their state to Ditto as a payload with a `signature`
added by `sign_json_payload` (`signPayload`): the valve's `open` and `timestamp`
(`valvePayload`), a notifier's message with its `timestamp` (`notifierPayload`). This module
follows such a payload through one cycle of the exporter into BaSyx.

`cycle_value_of_exported` reads the value of one element after a cycle off `cycle_slot` of
`Crosstalk.lean`: the cleanup pass keeps every selected property (`cleanSlot_elements`), and the one
listing of the thing upserts the bundle's properties in order, so a property that the policy
selects ends as `str(value)` when its element was missing and as `f'"{value}"'` when it existed
(`foldl_upsert_value`). `cycle_mirrors_signed` puts a signed payload through the gate: with an
ideal scheme and a signing run that the scheme accepts, every selected property of the payload is
in BaSyx after the cycle, whether `verify_signatures` is on or off.

The attack script writes into the same elements: its target in `ATTACK_CONFIG` is the valve's
`open`. What it writes lasts until the next round of the exporter, which stores its own text of
the property's value over it (`cycle_overwrites_attack`): the value after a cycle depends on the
element's presence only, and an attack leaves the element present.
-/

namespace TwinExporter

/-! ## The upserts of a bundle -/

section Upserts

variable (host : Host)

/-- Upserts of other properties leave an element as it is. -/
theorem foldl_upsert_of_not_mem {p : String} : ∀ (props : List (String × JsonValue)) (sm : Submodel),
    p ∉ props.map Prod.fst →
      (props.foldl (fun sm e => sm.upsert host e.1 e.2) sm).elements p = sm.elements p
  | [], _, _ => rfl
  | (q, v) :: props, sm, h => by
    simp only [List.map_cons, List.mem_cons, not_or] at h
    rw [List.foldl_cons, foldl_upsert_of_not_mem props _ h.2]
    simp [Submodel.upsert, h.1]

/-- The upserts of properties with one entry per key store `str(v)` for a property `p` with value
`v` whose element was missing, and `"` + `str(v)` + `"` for one whose element existed. -/
theorem foldl_upsert_value {p : String} {v : JsonValue} :
    ∀ (props : List (String × JsonValue)) (sm : Submodel), (props.map Prod.fst).Nodup →
      (p, v) ∈ props → (props.foldl (fun sm e => sm.upsert host e.1 e.2) sm).elements p =
        some (if (sm.elements p).isSome then "\"" ++ host.str v ++ "\"" else host.str v)
  | (q, v') :: props, sm, hnd, h => by
    rw [List.map_cons, List.nodup_cons] at hnd
    rw [List.foldl_cons]
    rcases List.mem_cons.mp h with he | he
    · obtain ⟨rfl, rfl⟩ := Prod.mk.inj he
      rw [foldl_upsert_of_not_mem host props _ hnd.1]
      simp [Submodel.upsert]
    · have hq : p ≠ q := by
        rintro rfl
        exact hnd.1 (List.mem_map.mpr ⟨_, he, rfl⟩)
      rw [foldl_upsert_value props _ hnd.2 he]
      simp [Submodel.upsert, hq]

end Upserts

/-- The filtered properties have one entry per key. -/
theorem filterProperties_nodup (sel : List String) (all : Dict JsonValue) :
    ((filterProperties sel all).map Prod.fst).Nodup := by
  unfold filterProperties
  split
  · exact all.nodup
  · exact (List.filter_sublist _).map Prod.fst |>.nodup all.nodup

/-! ## One element after a cycle -/

section Cycle

variable {config : Config} {snap : Snapshot} {host : Host} {now : Nat} {s : SourceRule}
  {t f : String}

/-- The cleanup pass keeps every property that the policy selects for an exported feature. -/
theorem cleanSlot_elements {url : String} {d : Feature} {sel : List String}
    (hres : resolve config host now url (some t) f = .found sel) {q : String}
    (hq : "*" ∈ sel ∨ q ∈ sel) (o : Option Submodel) :
    ((cleanSlot config host now url t f (some d) o).getD .empty).elements q =
      (o.getD .empty).elements q := by
  unfold cleanSlot
  split_ifs with ht
  · rfl
  · simp only [hres]
    split_ifs with hstar
    · rfl
    · cases o <;> simp [hq.resolve_left hstar]

/-- An element holds a value in a present submodel exactly when it exists. -/
theorem Store.elements_getD_isSome (σ : Store) (k p : String) :
    (((σ.submodels k).getD .empty).elements p).isSome = σ.hasElement k p := by
  cases h : σ.submodels k <;> simp [Store.hasElement, h, Submodel.empty]

/-- With one source rule and one listing of thing `t`, whose feature `f` no other thing reports
under `t:f`, a cycle stores in element `q` of the submodel `t:f` the text of the value `x` of a
selected property `q` of the feature's bundle, past the gate: `str(x)` when the element was
missing, `f'"{x}"'` when it existed. -/
theorem cycle_value_of_exported (hsrc : config.sourceRules = [s])
    (hc : config.WellTimed host.fromisoformat) (hs : snap.Serves config)
    (hid : snap.Identified config) (hiso : snap.Isolates s t f) (hb : config.basyxConfigured = true)
    (hone : ((snap.things s.url s.auth).getD []).countP (·.thingId == some t) = 1)
    {d : Feature} (hd : (snap.features s.url s.auth t).bind (·.get? f) = some d)
    {sel : List String} (hres : resolve config host now s.url (some t) f = .found sel)
    (hgate : config.verifySignatures = true → verifyFeatureSignature host d config.publicKeyPath = true)
    {q : String} {x : JsonValue} (hq : "*" ∈ sel ∨ q ∈ sel) (hx : d.bundle.get? q = some x)
    (w : World) :
    (cycle config snap host now w).store.value (encodeId (submodelId t f)) q =
      some (if w.store.hasElement (encodeId (submodelId t f)) q
        then "\"" ++ host.str x ++ "\"" else host.str x) := by
  have hlisted : ((snap.things s.url s.auth).getD []).any (·.thingId == some t) := by
    rw [List.any_eq_true, ← List.countP_pos_iff, hone]
    exact Nat.one_pos
  have hfeat : snap.feature? s t f = some d := by simp [Snapshot.feature?, hlisted, hd]
  have hgate' : (config.verifySignatures && !verifyFeatureSignature host d config.publicKeyPath) = false := by
    cases hv : config.verifySignatures <;> simp [hgate, hv]
  rw [Store.value, cycle_slot hsrc hc hs hid hiso w, if_pos hb, hone, Function.iterate_one, hfeat, hd]
  simp only [featureSlot, hres, Option.some_bind]
  rw [exportSubmodel, if_neg (by simp [hgate']),
    foldl_upsert_value host _ _ (filterProperties_nodup _ _)
      (mem_filterProperties.mpr ⟨hq, Dict.mem_of_get? hx⟩),
    cleanSlot_elements hres hq, Store.elements_getD_isSome]

/-- The gate accepts a payload that the signer signed, with a run that an ideal scheme accepts. -/
theorem verifyFeatureSignature_signPayload_run {public_key_path : String}
    (S : IdealScheme host public_key_path) {sign : List UInt8 → List UInt8} {p : Dict JsonValue}
    (hns : "signature" ∉ p.keys) (hsign : S.Signs (payloadBytes p) (sign (payloadBytes p))) :
    verifyFeatureSignature host ⟨some (signPayload sign p)⟩ public_key_path = true := by
  rw [verifyFeatureSignature_iff_signs S (S.ne_nil hsign)
    (Dict.get?_of_mem (by simp [signPayload, signJsonPayload, Dict.entries_insert_of_not_mem hns])),
    payloadBytes, erase_signPayload hns]
  exact hsign

/-- What a simulator signs reaches the twin. A payload without `signature`, signed by
`sign_json_payload` with a run that an ideal scheme for the exporter's key accepts, and reported
as feature `f` of thing `t` under the conditions of `cycle_value_of_exported`: after a cycle,
every property `q` of it that the policy selects is in BaSyx, as `str(x)` for its value `x` when
its element was missing and `f'"{x}"'` when it existed, with `verify_signatures` on or off. -/
theorem cycle_mirrors_signed (hsrc : config.sourceRules = [s])
    (hc : config.WellTimed host.fromisoformat) (hs : snap.Serves config)
    (hid : snap.Identified config) (hiso : snap.Isolates s t f) (hb : config.basyxConfigured = true)
    (hone : ((snap.things s.url s.auth).getD []).countP (·.thingId == some t) = 1)
    (S : IdealScheme host config.publicKeyPath) {sign : List UInt8 → List UInt8}
    {p : Dict JsonValue} (hns : "signature" ∉ p.keys)
    (hsign : S.Signs (payloadBytes p) (sign (payloadBytes p)))
    (hd : (snap.features s.url s.auth t).bind (·.get? f) = some ⟨some (signPayload sign p)⟩)
    {sel : List String} (hres : resolve config host now s.url (some t) f = .found sel)
    {q : String} {x : JsonValue} (hq : "*" ∈ sel ∨ q ∈ sel) (hx : p.get? q = some x) (w : World) :
    (cycle config snap host now w).store.value (encodeId (submodelId t f)) q =
      some (if w.store.hasElement (encodeId (submodelId t f)) q
        then "\"" ++ host.str x ++ "\"" else host.str x) :=
  cycle_value_of_exported hsrc hc hs hid hiso hb hone hd hres
    (fun _ => verifyFeatureSignature_signPayload_run S hns hsign) hq
    (Dict.get?_of_mem (by
      simp [Feature.bundle, signPayload, Dict.entries_insert_of_not_mem hns, Dict.mem_of_get? hx]))
    w

/-- An attack on a property that the exporter writes lasts until the exporter's next round:
whatever `simulate_attack` wrote into element `q` of `t:f`, under the conditions of
`cycle_value_of_exported` the next cycle stores there the exporter's text of the property's value,
`f'"{x}"'`, since the attack leaves the element present. -/
theorem cycle_overwrites_attack (hsrc : config.sourceRules = [s])
    (hc : config.WellTimed host.fromisoformat) (hs : snap.Serves config)
    (hid : snap.Identified config) (hiso : snap.Isolates s t f) (hb : config.basyxConfigured = true)
    (hone : ((snap.things s.url s.auth).getD []).countP (·.thingId == some t) = 1)
    {d : Feature} (hd : (snap.features s.url s.auth t).bind (·.get? f) = some d)
    {sel : List String} (hres : resolve config host now s.url (some t) f = .found sel)
    (hgate : config.verifySignatures = true → verifyFeatureSignature host d config.publicKeyPath = true)
    {q : String} {x : JsonValue} (hq : "*" ∈ sel ∨ q ∈ sel) (hx : d.bundle.get? q = some x)
    (v : JsonValue) (w : World) :
    (cycle config snap host now (simulateAttack host t f q v w).2).store.value
        (encodeId (submodelId t f)) q = some ("\"" ++ host.str x ++ "\"") := by
  rw [cycle_value_of_exported hsrc hc hs hid hiso hb hone hd hres hgate hq hx, if_pos]
  rw [Store.hasElement_eq, simulateAttack_value]
  rfl

end Cycle

/-- A host whose `str` writes Booleans as Python does, and on which, as on `echoHost`, the
signature of a message is the message itself. -/
def valveHost : Host :=
  { echoHost with
    fromisoformat := fromisoformat2000
    str := fun
      | .bool b => if b then "True" else "False"
      | .str s => s
      | _ => "" }

/-- The ideal scheme of `valveHost`. -/
def valveScheme : IdealScheme valveHost "public_key.pem" where
  key := []
  loads := rfl
  Signs m σ := σ = m ∧ m ≠ []
  verify_iff m σ := by simp [valveHost, echoHost]
  message_unique h h' := h.1.symm.trans h'.1
  ne_nil h := h.1 ▸ h.2

/-- Source `u` lists thing `t`, whose feature `f` holds what `Valve.open` (or `Valve.close`)
sends: the payload signed on `valveHost`. -/
def valveSnapshot (isOpen : Bool) (timestamp : String) : Snapshot :=
  ⟨fun _ _ => some [⟨some "t"⟩],
    fun _ _ _ => some ⟨[("f", ⟨some (signPayload id (valvePayload isOpen timestamp))⟩)], by simp⟩⟩

/-- Every thing that `valveSnapshot` lists has an id. -/
theorem valveSnapshot_identified (isOpen : Bool) (timestamp : String) (config : Config) :
    (valveSnapshot isOpen timestamp).Identified config := by
  rintro s - th ⟨ths, hths, hth⟩
  simp only [valveSnapshot, Option.some.injEq] at hths
  subst hths
  rw [List.mem_singleton.mp hth]
  rfl

/-- Feature `f` of `t` is the only feature that `valveSnapshot` reports. -/
theorem valveSnapshot_isolates (isOpen : Bool) (timestamp : String) (s : SourceRule) :
    (valveSnapshot isOpen timestamp).Isolates s "t" "f" := by
  rintro th t' f' d ⟨⟨ths, hths, hth⟩, -⟩ hid -
  simp only [valveSnapshot, Option.some.injEq] at hths
  subst hths
  rw [List.mem_singleton.mp hth] at hid
  exact (Option.some.inj hid).symm

/-- What `Valve.open` signs reaches an empty BaSyx, with the gate on: `open` holds `True`. -/
theorem cycle_mirrors_signed_valve :
    signedMirrorPolicy.sourceRules = [{ source_url := some "u", things := some [
        { thing_id := some "t",
          downtime := some ⟨some "2000-01-01T00:00:00", some "2000-01-01T00:00:00"⟩,
          features := some [{ feature_id := some "f", properties := some ["*"] }] }] }] ∧
      signedMirrorPolicy.WellTimed valveHost.fromisoformat ∧
      (valveSnapshot true "t0").Serves signedMirrorPolicy ∧
      (valveSnapshot true "t0").Identified signedMirrorPolicy ∧
      (valveSnapshot true "t0").Isolates { source_url := some "u", things := some [
        { thing_id := some "t",
          downtime := some ⟨some "2000-01-01T00:00:00", some "2000-01-01T00:00:00"⟩,
          features := some [{ feature_id := some "f", properties := some ["*"] }] }] } "t" "f" ∧
      (cycle signedMirrorPolicy (valveSnapshot true "t0") valveHost 0 ⟨Store.empty, []⟩).store.value
          (encodeId (submodelId "t" "f")) "open" =
        some (if Store.empty.hasElement (encodeId (submodelId "t" "f")) "open"
          then "\"" ++ valveHost.str (.bool true) ++ "\"" else valveHost.str (.bool true)) :=
  have hsrc : signedMirrorPolicy.sourceRules = [{ source_url := some "u", things := some [
      { thing_id := some "t",
        downtime := some ⟨some "2000-01-01T00:00:00", some "2000-01-01T00:00:00"⟩,
        features := some [{ feature_id := some "f", properties := some ["*"] }] }] }] := rfl
  have hc : signedMirrorPolicy.WellTimed valveHost.fromisoformat := mirrorPolicy_wellTimed
  have hs : (valveSnapshot true "t0").Serves signedMirrorPolicy := fun _ _ => ⟨_, rfl, fun _ _ => rfl⟩
  have hid := valveSnapshot_identified true "t0" signedMirrorPolicy
  have hiso := valveSnapshot_isolates true "t0" { source_url := some "u", things := some [
      { thing_id := some "t",
        downtime := some ⟨some "2000-01-01T00:00:00", some "2000-01-01T00:00:00"⟩,
        features := some [{ feature_id := some "f", properties := some ["*"] }] }] }
  have hres : resolve signedMirrorPolicy valveHost 0 "u" (some "t") "f" = .found ["*"] := rfl
  have hx : (valvePayload true "t0").get? "open" = some (.bool true) := rfl
  ⟨hsrc, hc, hs, hid, hiso, cycle_mirrors_signed hsrc hc hs hid hiso rfl rfl valveScheme
    (valvePayload_keys true "t0") ⟨rfl, payloadBytes_ne_nil _⟩ rfl hres (.inl (List.mem_singleton_self _))
    hx _⟩

/-- After an attack writes `ABCD` into `open`, a cycle with the gate on stores the quoted
`True` that the valve reported. -/
theorem cycle_overwrites_attack_valve :
    signedMirrorPolicy.sourceRules = [{ source_url := some "u", things := some [
        { thing_id := some "t",
          downtime := some ⟨some "2000-01-01T00:00:00", some "2000-01-01T00:00:00"⟩,
          features := some [{ feature_id := some "f", properties := some ["*"] }] }] }] ∧
      signedMirrorPolicy.WellTimed valveHost.fromisoformat ∧
      (valveSnapshot true "t0").Serves signedMirrorPolicy ∧
      (valveSnapshot true "t0").Identified signedMirrorPolicy ∧
      (valveSnapshot true "t0").Isolates { source_url := some "u", things := some [
        { thing_id := some "t",
          downtime := some ⟨some "2000-01-01T00:00:00", some "2000-01-01T00:00:00"⟩,
          features := some [{ feature_id := some "f", properties := some ["*"] }] }] } "t" "f" ∧
      (signedMirrorPolicy.verifySignatures = true → verifyFeatureSignature valveHost
        ⟨some (signPayload id (valvePayload true "t0"))⟩ signedMirrorPolicy.publicKeyPath = true) ∧
      (cycle signedMirrorPolicy (valveSnapshot true "t0") valveHost 0
          (simulateAttack valveHost "t" "f" "open" (.str "ABCD") ⟨Store.empty, []⟩).2).store.value
          (encodeId (submodelId "t" "f")) "open" = some ("\"" ++ valveHost.str (.bool true) ++ "\"") :=
  have hsrc : signedMirrorPolicy.sourceRules = [{ source_url := some "u", things := some [
      { thing_id := some "t",
        downtime := some ⟨some "2000-01-01T00:00:00", some "2000-01-01T00:00:00"⟩,
        features := some [{ feature_id := some "f", properties := some ["*"] }] }] }] := rfl
  have hc : signedMirrorPolicy.WellTimed valveHost.fromisoformat := mirrorPolicy_wellTimed
  have hs : (valveSnapshot true "t0").Serves signedMirrorPolicy := fun _ _ => ⟨_, rfl, fun _ _ => rfl⟩
  have hid := valveSnapshot_identified true "t0" signedMirrorPolicy
  have hiso := valveSnapshot_isolates true "t0" { source_url := some "u", things := some [
      { thing_id := some "t",
        downtime := some ⟨some "2000-01-01T00:00:00", some "2000-01-01T00:00:00"⟩,
        features := some [{ feature_id := some "f", properties := some ["*"] }] }] }
  have hres : resolve signedMirrorPolicy valveHost 0 "u" (some "t") "f" = .found ["*"] := rfl
  have hgate : signedMirrorPolicy.verifySignatures = true → verifyFeatureSignature valveHost
      ⟨some (signPayload id (valvePayload true "t0"))⟩ signedMirrorPolicy.publicKeyPath = true :=
    fun _ => verifyFeatureSignature_signPayload_run valveScheme (valvePayload_keys true "t0")
      ⟨rfl, payloadBytes_ne_nil _⟩
  have hx : (⟨some (signPayload id (valvePayload true "t0"))⟩ : Feature).bundle.get? "open" =
      some (.bool true) := rfl
  ⟨hsrc, hc, hs, hid, hiso, hgate, cycle_overwrites_attack hsrc hc hs hid hiso rfl rfl rfl hres hgate
    (.inl (List.mem_singleton_self _)) hx _ _⟩

end TwinExporter

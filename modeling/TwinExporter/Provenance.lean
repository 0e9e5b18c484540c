import TwinExporter.Oblivious
import TwinExporter.Signing

/-!
# Where the values in BaSyx come from

A value enters an element only by a create or an update that carries it (`Store.value_apply`). The
cleanup pass sends deletes; the reconciliation pass sends a create or an update of element `p` of
submodel `t:f` only for a selected property `p` of the bundle that a source reports for `f` of `t`,
past the signature gate, with `str(value)` or `f'"{value}"'` (`ExportCall`). So a value after a
cycle was there before, or is the text of such a property (`cycle_value_origin`); and over any
interleaving of rounds with other clients' patches, every value was there at the start, or is the
body of a patch, or the text of a property that a round wrote (`runEvents_provenance`). With
signatures checked and an ideal scheme, the gate accepts a bundle only when its `signature` decodes
to a signature that the key made on the rest of the bundle (`verifyFeatureSignature_sound`), so no
value reaches BaSyx from a bundle that the key did not sign (`runEvents_signed`).

The converse frame: an element whose name no bundle of its submodel carries, in a submodel whose
features are all configured, keeps its value over a cycle (`cycle_keeps_unreported`). A value that
another client writes there is never repaired.
-/

namespace TwinExporter

/-! ## A value comes from the call that writes it -/

/-- A call that puts value `v` into element `p` of the submodel at `k`. -/
def Call.Puts (k p v : String) (c : Call) : Prop :=
  c = .createElement k p v ∨ c = .updateElement k p v

/-- After a call, an element holds its old value or the one the call puts there. -/
theorem Store.value_apply_eq_some (σ : Store) {c : Call} {k p v : String}
    (h : (σ.apply c).2.value k p = some v) : σ.value k p = some v ∨ c.Puts k p v := by
  rw [Store.value_apply] at h
  cases hw : c.written σ.has k p with
  | none => exact .inl (by rwa [hw, Option.getD_none] at h)
  | some x =>
    rw [hw, Option.getD_some] at h
    subst h
    cases c <;> simp only [Call.written] at hw <;> (try split_ifs at hw) <;> simp_all [Call.Puts]

/-- After calls sent one after the other, an element holds its old value or one that a call puts
there. -/
theorem sendAll_value_eq_some {k p v : String} : ∀ (cs : List Call) (w : World),
    (sendAll cs w).store.value k p = some v → w.store.value k p = some v ∨ ∃ c ∈ cs, c.Puts k p v
  | [], _, h => .inl h
  | c :: cs, w, h => by
    rcases sendAll_value_eq_some cs _ h with h' | ⟨c', hc', hput⟩
    · rcases w.store.value_apply_eq_some h' with h'' | hput
      · exact .inl h''
      · exact .inr ⟨c, List.mem_cons_self _ _, hput⟩
    · exact .inr ⟨c', List.mem_cons_of_mem _ hc', hput⟩

/-- Calls that write nothing at an element leave its value. -/
theorem sendAll_value_of_written {k p : String} {cs : List Call}
    (h : ∀ c ∈ cs, ∀ hs, c.written hs k p = none) (w : World) :
    (sendAll cs w).store.value k p = w.store.value k p :=
  sendAll_store_induction (I := fun σ => σ.value k p = w.store.value k p) cs w
    (fun c hc σ hσ => (σ.value_apply_of_written (h c hc _)).trans hσ) rfl

/-! ## What a cycle writes -/

section Cycle

variable {config : Config} {snap : Snapshot} {host : Host} {now : Nat}

/-- A cycle sends the retired deletes of its cleanup pass, then the authorized writes of its
reconciliation pass. -/
theorem cycle_eq_sendAll (w : World) : ∃ cs ds, (∀ c ∈ cs, Retired config snap host now c) ∧
    (∀ c ∈ ds, Authorized config snap host now c) ∧
      cycle config snap host now w = sendAll (cs ++ ds) w := by
  obtain ⟨cs, hcs, e₁⟩ := @sends_cleanup config snap host now w
  obtain ⟨ds, hds, e₂⟩ := @sends_reconcile config snap host now (cleanupBasyxResources config snap host now w)
  exact ⟨cs, ds, hcs, hds, by rw [cycle, e₂, e₁, sendAll_append]⟩

/-- Element `p` of the submodel at `k` holds `v` because the reconciliation pass wrote it: `v` is
`str(x)` or `f'"{x}"'` for the value `x` of selected property `p` of the bundle that a source rule
of the policy reports for a feature whose submodel is at `k`, past the signature gate when it is
on. -/
def WrittenBy (config : Config) (snap : Snapshot) (host : Host) (now : Nat) (k p v : String) :
    Prop :=
  ∃ s ∈ config.sourceRules, ∃ th t fid d sel x, snap.Reports s th fid d ∧ th.thingId = some t ∧
    resolve config host now s.url (some t) fid = .found sel ∧ k = encodeId (submodelId t fid) ∧
    WritesProperty config host d sel p x ∧ (v = host.str x ∨ v = "\"" ++ host.str x ++ "\"")

/-- A delete of the cleanup pass writes no value. -/
theorem Retired.not_puts {c : Call} (h : Retired config snap host now c) {k p v : String} :
    ¬c.Puts k p v := by
  rintro (rfl | rfl) <;> exact h.isDelete

/-- A value that a call of the reconciliation pass writes comes from a reported bundle. -/
theorem Authorized.writtenBy {c : Call} (h : Authorized config snap host now c) {k p v : String}
    (hput : c.Puts k p v) : WrittenBy config snap host now k p v := by
  obtain ⟨s, hs, th, t, fid, d, sel, hr, ht, hres, hc⟩ := h
  rcases hput with rfl | rfl
  · obtain ⟨hk, x, hx, rfl⟩ := hc
    exact ⟨s, hs, th, t, fid, d, sel, x, hr, ht, hres, hk, hx, .inl rfl⟩
  · obtain ⟨hk, x, hx, rfl⟩ := hc
    exact ⟨s, hs, th, t, fid, d, sel, x, hr, ht, hres, hk, hx, .inr rfl⟩

/-- After a cycle, an element holds the value it held before, or one that the reconciliation pass
wrote from a reported bundle. -/
theorem cycle_value_origin {w : World} {k p v : String}
    (h : (cycle config snap host now w).store.value k p = some v) :
    w.store.value k p = some v ∨ WrittenBy config snap host now k p v := by
  obtain ⟨cs, ds, hcs, hds, e⟩ := @cycle_eq_sendAll config snap host now w
  rw [e] at h
  rcases sendAll_value_eq_some _ w h with h | ⟨c, hc, hput⟩
  · exact .inl h
  · rcases List.mem_append.mp hc with hc | hc
    · exact absurd hput (hcs c hc).not_puts
    · exact .inr ((hds c hc).writtenBy hput)

/-- A value that the reconciliation pass wrote with the signature gate on, under an ideal scheme
for the key it loads, is the text of a property of a reported bundle whose `signature` decodes to
a signature that the key made on the rest of the bundle. -/
theorem WrittenBy.signed {public_key_path : String} (S : IdealScheme host public_key_path)
    (hv : config.verifySignatures = true) (hpath : config.publicKeyPath = public_key_path)
    {k p v : String} (h : WrittenBy config snap host now k p v) :
    ∃ s ∈ config.sourceRules, ∃ th t fid B x sig σ, snap.Reports s th fid ⟨some B⟩ ∧
      th.thingId = some t ∧ k = encodeId (submodelId t fid) ∧ B.get? p = some x ∧
      (v = host.str x ∨ v = "\"" ++ host.str x ++ "\"") ∧ B.get? "signature" = some (.str sig) ∧
      b64decode sig = some σ ∧ S.Signs (payloadBytes (B.erase "signature")) σ := by
  obtain ⟨s, hs, th, t, fid, ⟨props⟩, sel, x, hr, ht, -, hk, ⟨-, hx, hgate⟩, hval⟩ := h
  obtain ⟨B, sig, σ, hB, hsig, hσ, hsigns⟩ := verifyFeatureSignature_sound S (hpath ▸ hgate hv)
  cases hB
  exact ⟨s, hs, th, t, fid, B, x, sig, σ, hr, ht, hk, hx, hval, hsig, hσ, hsigns⟩

end Cycle

/-! ## Over any interleaving of rounds and patches -/

/-- Value `v` of element `p` of the submodel at `k` comes from an event: a round that wrote it, or
a patch of that element with body `v`. -/
def Event.Origin (host : Host) (k p v : String) : Event → Prop
  | .round config snap now => WrittenBy config snap host now k p v
  | .patch k' p' body => k' = k ∧ p' = p ∧ body = v

/-- After an event, an element holds its old value or one that the event wrote. -/
theorem Event.value_run_eq_some (host : Host) (e : Event) {w : World} {k p v : String}
    (h : (e.run host w).store.value k p = some v) : w.store.value k p = some v ∨ e.Origin host k p v := by
  cases e with
  | round config snap now => exact cycle_value_origin h
  | patch k' p' body =>
    rcases w.store.value_apply_eq_some h with h | h | h
    · exact .inl h
    · cases h
    · injection h with h₁ h₂ h₃
      exact .inr ⟨h₁, h₂, h₃⟩

/-- Over a run, an element holds its value at the start, or one that an event of the run wrote,
when every event of the run writes only values with origin `O`. -/
theorem runEvents_value_eq_some (host : Host) {k p v : String} {O : Event → Prop} :
    ∀ (es : List Event) (w : World),
      (∀ e ∈ es, ∀ w : World, (e.run host w).store.value k p = some v →
        w.store.value k p = some v ∨ O e) →
      (runEvents host es w).store.value k p = some v →
        w.store.value k p = some v ∨ ∃ e ∈ es, O e
  | [], _, _, h => .inl h
  | e :: es, w, hO, h => by
    rcases runEvents_value_eq_some host es _ (fun e' he' => hO e' (List.mem_cons_of_mem _ he')) h
      with h | ⟨e', he', ho⟩
    · rcases hO e (List.mem_cons_self _ _) w h with h | ho
      · exact .inl h
      · exact .inr ⟨e, List.mem_cons_self _ _, ho⟩
    · exact .inr ⟨e', List.mem_cons_of_mem _ he', ho⟩

/-- Over any interleaving of the exporter's rounds with other clients' patches, every value in
BaSyx was there at the start, or is the body of a patch of its element, or was written by a
round from the bundle that a source of that round's policy reported, as `WrittenBy` says. -/
theorem runEvents_provenance (host : Host) {k p v : String} (es : List Event) (w : World)
    (h : (runEvents host es w).store.value k p = some v) :
    w.store.value k p = some v ∨ ∃ e ∈ es, e.Origin host k p v :=
  runEvents_value_eq_some host es w (fun e _ _ => e.value_run_eq_some host) h

/-- A round of the mirror policy from an empty submodel `t:f` writes `7` at `p`, from the
bundle of feature `f` of `t`. -/
theorem runEvents_provenance_mirror :
    (runEvents textHost [.round mirrorPolicy (valueSnapshot (.str "7")) 0]
        ⟨mirroredStore false, []⟩).store.value (encodeId "t:f") "p" = some "7" ∧
      ((mirroredStore false).value (encodeId "t:f") "p" = some "7" ∨
        ∃ e ∈ [Event.round mirrorPolicy (valueSnapshot (.str "7")) 0],
          e.Origin textHost (encodeId "t:f") "p" "7") :=
  have h : (runEvents textHost [.round mirrorPolicy (valueSnapshot (.str "7")) 0]
      ⟨mirroredStore false, []⟩).store.value (encodeId "t:f") "p" = some "7" := rfl
  ⟨h, runEvents_provenance textHost _ _ h⟩

/-- With the signature gate on in every round, under an ideal scheme for the key, no value reaches
BaSyx from a bundle that the key did not sign: after any interleaving of rounds with other clients'
patches, every value was there at the start, or is the body of a patch, or the text of a property
of a reported bundle whose `signature` decodes to a signature that the key made on the rest of
the bundle. -/
theorem runEvents_signed {host : Host} {public_key_path : String}
    (S : IdealScheme host public_key_path) {es : List Event}
    (hv : ∀ config snap now, Event.round config snap now ∈ es →
      config.verifySignatures = true ∧ config.publicKeyPath = public_key_path)
    (w : World) {k p v : String} (h : (runEvents host es w).store.value k p = some v) :
    w.store.value k p = some v ∨ Event.patch k p v ∈ es ∨
      ∃ config snap now, Event.round config snap now ∈ es ∧ ∃ s ∈ config.sourceRules,
        ∃ th t fid B x sig σ, snap.Reports s th fid ⟨some B⟩ ∧ th.thingId = some t ∧
          k = encodeId (submodelId t fid) ∧ B.get? p = some x ∧
          (v = host.str x ∨ v = "\"" ++ host.str x ++ "\"") ∧ B.get? "signature" = some (.str sig) ∧
          b64decode sig = some σ ∧ S.Signs (payloadBytes (B.erase "signature")) σ := by
  rcases runEvents_value_eq_some host es w (fun e _ _ => e.value_run_eq_some host) h
    with h | ⟨e, he, ho⟩
  · exact .inl h
  cases e with
  | round config snap now =>
    have hc := hv config snap now he
    exact .inr (.inr ⟨config, snap, now, he, ho.signed S hc.1 hc.2⟩)
  | patch k' p' body =>
    obtain ⟨rfl, rfl, rfl⟩ := ho
    exact .inr (.inl he)

/-- `mirrorPolicy` with the signature gate on. -/
def signedMirrorPolicy : Config := { mirrorPolicy with verify_signatures := some true }

/-- A round of `signedMirrorPolicy` on `echoHost`, then a patch of element `p` of `t:f`. -/
def signedRun : List Event :=
  [.round signedMirrorPolicy (valueSnapshot (.str "7")) 0, .patch (encodeId "t:f") "p" "ABCD"]

/-- With the gate on, after a round and another client's patch, the value `ABCD` at `p` is
the body of the patch. -/
theorem runEvents_signed_patched :
    (∀ config snap now, Event.round config snap now ∈ signedRun →
        config.verifySignatures = true ∧ config.publicKeyPath = "public_key.pem") ∧
      (runEvents echoHost signedRun ⟨mirroredStore true, []⟩).store.value (encodeId "t:f") "p" =
        some "ABCD" ∧
      ((mirroredStore true).value (encodeId "t:f") "p" = some "ABCD" ∨
        Event.patch (encodeId "t:f") "p" "ABCD" ∈ signedRun ∨
        ∃ config snap now, Event.round config snap now ∈ signedRun ∧ ∃ s ∈ config.sourceRules,
          ∃ th t fid B x sig σ, snap.Reports s th fid ⟨some B⟩ ∧ th.thingId = some t ∧
            encodeId "t:f" = encodeId (submodelId t fid) ∧ B.get? "p" = some x ∧
            ("ABCD" = echoHost.str x ∨ "ABCD" = "\"" ++ echoHost.str x ++ "\"") ∧
            B.get? "signature" = some (.str sig) ∧ b64decode sig = some σ ∧
            echoScheme.Signs (payloadBytes (B.erase "signature")) σ) :=
  have hv : ∀ config snap now, Event.round config snap now ∈ signedRun →
      config.verifySignatures = true ∧ config.publicKeyPath = "public_key.pem" := by
    intro config snap now h
    simp only [signedRun, List.mem_cons, Event.round.injEq, reduceCtorEq, List.not_mem_nil,
      or_false] at h
    obtain ⟨rfl, -, -⟩ := h
    exact ⟨rfl, rfl⟩
  have h : (runEvents echoHost signedRun ⟨mirroredStore true, []⟩).store.value (encodeId "t:f") "p" =
      some "ABCD" := rfl
  ⟨hv, h, runEvents_signed echoScheme hv _ h⟩

/-! ## Elements that no bundle names -/

section Unreported

variable {config : Config} {snap : Snapshot} {host : Host} {now : Nat} {k p : String}

/-- The features that source rules of the policy report with their submodel at `k` are all
configured, and none of their bundles carries property `p`. -/
def Unreported (config : Config) (snap : Snapshot) (host : Host) (now : Nat) (k p : String) : Prop :=
  ∀ s ∈ config.sourceRules, ∀ th t fid d, snap.Reports s th fid d → th.thingId = some t →
    k = encodeId (submodelId t fid) →
      p ∉ d.bundle.keys ∧ resolve config host now s.url (some t) fid ≠ .unconfigured

/-- A delete of the cleanup pass does not write an element that no source reports. -/
theorem Retired.written_eq_none (hu : Unreported config snap host now k p) {c : Call}
    (h : Retired config snap host now c) (hs : Slot → Bool) : c.written hs k p = none := by
  cases c with
  | deleteSubmodel k' =>
    obtain ⟨s, hs', th, t, fid, d, hr, ht, -, rfl, hun⟩ := h
    simp only [Call.written, ite_eq_right_iff, reduceCtorEq, imp_false]
    exact fun hk => (hu s hs' th t fid d hr ht hk.symm).2 hun
  | deleteElement k' p' =>
    obtain ⟨s, hs', th, t, fid, d, sel, hr, ht, -, rfl, -, -, -, hp⟩ := h
    simp only [Call.written, ite_eq_right_iff, reduceCtorEq, imp_false]
    exact fun ⟨hk, hp'⟩ => (hu s hs' th t fid d hr ht hk.symm).1 (hp' ▸ hp)
  | createElement | updateElement => exact h.elim
  | deleteShell | createShell | createSubmodel | postSubmodelRef => rfl

/-- A call of the reconciliation pass does not write an element that no source reports. -/
theorem Authorized.written_eq_none (hu : Unreported config snap host now k p) {c : Call}
    (h : Authorized config snap host now c) (hs : Slot → Bool) : c.written hs k p = none := by
  obtain ⟨s, hs', th, t, fid, d, sel, hr, ht, -, hc⟩ := h
  cases c with
  | createElement k' p' v | updateElement k' p' v =>
    obtain ⟨rfl, x, ⟨-, hx, -⟩, -⟩ := hc
    simp only [Call.written, ite_eq_right_iff, reduceCtorEq, imp_false]
    rintro ⟨hk, rfl⟩ -
    exact (hu s hs' th t fid d hr ht hk.symm).1 ((Dict.mem_keys_iff _ _).mpr ⟨x, hx⟩)
  | deleteShell | deleteSubmodel | deleteElement => exact hc.elim
  | createShell | createSubmodel | postSubmodelRef => rfl

/-- The exporter never repairs an element that no reported bundle names: when every feature
reported with its submodel at `k` is configured and none carries property `p`, a cycle leaves
the value of element `p` there as it was, whatever another client wrote. -/
theorem cycle_keeps_unreported (hu : Unreported config snap host now k p) (w : World) :
    (cycle config snap host now w).store.value k p = w.store.value k p := by
  obtain ⟨cs, ds, hcs, hds, e⟩ := @cycle_eq_sendAll config snap host now w
  rw [e]
  refine sendAll_value_of_written (fun c hc => ?_) w
  rcases List.mem_append.mp hc with hc | hc
  · exact (hcs c hc).written_eq_none hu
  · exact (hds c hc).written_eq_none hu

/-- `mirroredStore true` with an element `injected` that no source reports. -/
def injectedStore : Store := ((mirroredStore true).apply (.createElement (encodeId "t:f") "injected" "ABCD")).2

/-- A cycle of the mirror policy keeps an element `injected` that no source reports. -/
theorem cycle_keeps_unreported_injected :
    Unreported mirrorPolicy (valueSnapshot (.str "7")) textHost 0 (encodeId "t:f") "injected" ∧
      (cycle mirrorPolicy (valueSnapshot (.str "7")) textHost 0 ⟨injectedStore, []⟩).store.value
          (encodeId "t:f") "injected" = injectedStore.value (encodeId "t:f") "injected" :=
  have hu : Unreported mirrorPolicy (valueSnapshot (.str "7")) textHost 0 (encodeId "t:f") "injected" := by
    intro s hs th t fid d hr ht _
    obtain ⟨rfl, rfl, rfl⟩ := valueSnapshot_reports hr
    simp only [mirrorPolicy, Config.sourceRules, Option.getD_some, List.mem_singleton] at hs
    cases ht
    subst hs
    exact ⟨by decide, by decide⟩
  ⟨hu, cycle_keeps_unreported hu _⟩

end Unreported

end TwinExporter

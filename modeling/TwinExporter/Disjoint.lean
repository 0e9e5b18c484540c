import TwinExporter.Writes

/-!
# Cleanup and reconciliation touch disjoint places

Within one cycle, the cleanup pass deletes and the reconciliation pass writes. The two passes are
written independently: the cleanup pass walks the policy to find what it no longer exports, the
reconciliation pass to find what it does. They agree when every place of BaSyx is reached from one
(thing, feature) pair only. Then a deleted place has a reason (`Retired`), a written place has a
reason (`Authorized`), and the two reasons are answers of the resolver to the same question that
contradict each other (`retired_authorized_disjoint`).

Without that, the cycle deletes and recreates: two source rules that report the same thing id,
one of which exports none of its features, make the cleanup pass delete the shell that the
reconciliation pass then creates again (`cycle_recreates_deleted_shell`). Two pairs such as
(`a:b`, `c`) and (`a`, `b:c`) share the submodel `a:b:c` in the same way.
-/

namespace TwinExporter

/-- Every place of BaSyx is reached from one (thing, feature) pair of the snapshot: a thing id
reported by two source rules of the policy is fetched from the same URL with the same header, and
two reported features whose submodel ids `t:f` coincide are the same feature of the same
thing. -/
structure Unshared (config : Config) (snap : Snapshot) : Prop where
  /-- Two source rules that report a thing with the same id fetch from the same URL with the same
  `Authorization` header, so they see the same features. -/
  thing : ∀ s₁ ∈ config.sourceRules, ∀ s₂ ∈ config.sourceRules, ∀ th₁ th₂ t,
    snap.ReportsThing s₁ th₁ → snap.ReportsThing s₂ th₂ → th₁.thingId = some t →
      th₂.thingId = some t → s₁.url = s₂.url ∧ s₁.auth = s₂.auth
  /-- Two reported features whose submodel ids coincide are the same feature of the same
  thing. -/
  submodel : ∀ s₁ ∈ config.sourceRules, ∀ s₂ ∈ config.sourceRules, ∀ th₁ th₂ t₁ t₂ f₁ f₂ d₁ d₂,
    snap.Reports s₁ th₁ f₁ d₁ → snap.Reports s₂ th₂ f₂ d₂ → th₁.thingId = some t₁ →
      th₂.thingId = some t₂ → submodelId t₁ f₁ = submodelId t₂ f₂ → t₁ = t₂ ∧ f₁ = f₂

section Disjoint

variable {config : Config} {snap : Snapshot} {host : Host} {now : Nat}

/-- Two reports of the same thing and feature, by source rules of an unshared policy, get the same
answer from the resolver. -/
theorem Unshared.resolve_eq (hu : Unshared config snap) {s₁ s₂ : SourceRule}
    (hs₁ : s₁ ∈ config.sourceRules) (hs₂ : s₂ ∈ config.sourceRules) {th₁ th₂ : Thing} {t : String}
    (h₁ : snap.ReportsThing s₁ th₁) (h₂ : snap.ReportsThing s₂ th₂) (ht₁ : th₁.thingId = some t)
    (ht₂ : th₂.thingId = some t) (fid : String) :
    resolve config host now s₁.url (some t) fid = resolve config host now s₂.url (some t) fid := by
  rw [(hu.thing s₁ hs₁ s₂ hs₂ th₁ th₂ t h₁ h₂ ht₁ ht₂).1]

/-- A written submodel of an unshared policy is the submodel of one reported feature, which the
resolver exports. -/
theorem Unshared.found_of_submodel (hu : Unshared config snap) {s₁ s₂ : SourceRule}
    (hs₁ : s₁ ∈ config.sourceRules) (hs₂ : s₂ ∈ config.sourceRules) {th₁ th₂ : Thing}
    {t₁ t₂ f₁ f₂ : String} {d₁ d₂ : Feature} {sel : List String}
    (h₁ : snap.Reports s₁ th₁ f₁ d₁) (h₂ : snap.Reports s₂ th₂ f₂ d₂) (ht₁ : th₁.thingId = some t₁)
    (ht₂ : th₂.thingId = some t₂) (hk : encodeId (submodelId t₂ f₂) = encodeId (submodelId t₁ f₁))
    (hsel : resolve config host now s₂.url (some t₂) f₂ = .found sel) :
    resolve config host now s₁.url (some t₁) f₁ = .found sel := by
  obtain ⟨rfl, rfl⟩ := hu.submodel s₁ hs₁ s₂ hs₂ th₁ th₂ t₁ t₂ f₁ f₂ d₁ d₂ h₁ h₂ ht₁ ht₂
    (encodeId_injective hk).symm
  rwa [hu.resolve_eq hs₁ hs₂ h₁.1 h₂.1 ht₁ ht₂]

/-- A call of an exported feature writes the shell of its thing, its submodel, or a written
property of it. -/
theorem exportCall_target {t fid : String} {d : Feature} {sel : List String} {c : Call}
    (h : ExportCall config host t fid d sel c) :
    c.target = .shell (encodeId t) ∨ c.target = .submodel (encodeId (submodelId t fid)) ∨
      ∃ p v, c.target = .element (encodeId (submodelId t fid)) p ∧
        WritesProperty config host d sel p v := by
  cases c with
  | createShell t' => exact .inl (by rw [show t' = t from h]; rfl)
  | createSubmodel id => exact .inr (.inl (by rw [show id = _ from h]; rfl))
  | postSubmodelRef k id => exact .inl (by rw [show k = _ from h.1]; rfl)
  | createElement k p value =>
    obtain ⟨rfl, v, hv, -⟩ := h
    exact .inr (.inr ⟨p, v, rfl, hv⟩)
  | updateElement k p body =>
    obtain ⟨rfl, v, hv, -⟩ := h
    exact .inr (.inr ⟨p, v, rfl, hv⟩)
  | deleteShell _ | deleteSubmodel _ | deleteElement _ _ => exact h.elim

/-- On an unshared policy, no place that the cleanup pass may delete is one that the
reconciliation pass may write, or an element of it. -/
theorem retired_authorized_disjoint (hu : Unshared config snap) {d c : Call}
    (hd : Retired config snap host now d) (hc : Authorized config snap host now c) :
    ¬ d.target.Covers c.target := by
  obtain ⟨s₂, hs₂, th₂, t₂, f₂, d₂, sel, hr₂, ht₂, hsel, hcall⟩ := hc
  intro hcov
  cases d with
  | deleteShell k =>
    obtain ⟨s₁, hs₁, th₁, t₁, feats, hr₁, ht₁, -, hfeats, rfl, hu₁⟩ := hd
    -- only the shell of `t₂` is a shell that the feature writes; it is `t₁`'s
    obtain rfl : t₂ = t₁ := by
      rcases exportCall_target hcall with h | h | ⟨p, v, h, -⟩ <;> rw [h] at hcov <;>
        simp only [Call.target, Slot.Covers, Slot.shell.injEq, reduceCtorEq] at hcov
      exact encodeId_injective hcov
    -- the two rules fetch the same features of `t₂`, and `f₂` is one of them
    obtain ⟨hurl, hauth⟩ := hu.thing s₁ hs₁ s₂ hs₂ th₁ th₂ t₂ hr₁ hr₂.1 ht₁ ht₂
    obtain ⟨feats₂, hfeats₂, hmem⟩ := hr₂.2
    rw [ht₂, pyFormat, ← hurl, ← hauth, hfeats] at hfeats₂
    cases hfeats₂
    have hun := hu₁ _ hmem
    rw [hurl, hsel] at hun
    cases hun
  | deleteSubmodel k =>
    obtain ⟨s₁, hs₁, th₁, t₁, f₁, d₁, hr₁, ht₁, -, rfl, hu₁⟩ := hd
    -- the feature writes into the deleted submodel, so it is the same feature
    have hk : encodeId (submodelId t₂ f₂) = encodeId (submodelId t₁ f₁) := by
      rcases exportCall_target hcall with h | h | ⟨p, v, h, -⟩ <;> rw [h] at hcov <;>
        simp only [Call.target, Slot.Covers, Slot.submodel.injEq, reduceCtorEq] at hcov
      all_goals exact hcov
    have := hu.found_of_submodel hs₁ hs₂ hr₁ hr₂ ht₁ ht₂ hk hsel
    rw [hu₁] at this
    cases this
  | deleteElement k p =>
    obtain ⟨s₁, hs₁, th₁, t₁, f₁, d₁, sel₁, hr₁, ht₁, -, rfl, hsel₁, hstar, hp, -⟩ := hd
    -- the feature writes the deleted element, which its list selects
    obtain ⟨hk, v, hv⟩ : encodeId (submodelId t₂ f₂) = encodeId (submodelId t₁ f₁) ∧
        ∃ v, WritesProperty config host d₂ sel p v := by
      rcases exportCall_target hcall with h | h | ⟨p', v, h, hv⟩ <;> rw [h] at hcov <;>
        simp only [Call.target, Slot.Covers, Slot.element.injEq, reduceCtorEq] at hcov
      obtain ⟨hk, rfl⟩ := hcov
      exact ⟨hk, v, hv⟩
    have := hu.found_of_submodel hs₁ hs₂ hr₁ hr₂ ht₁ ht₂ hk hsel
    rw [hsel₁] at this
    cases this
    rcases hv.1 with h | h
    · exact hstar h
    · exact hp h
  | _ => exact hd.elim

/-- On an unshared policy, no place that the cleanup pass of a cycle deletes is created or
written by its reconciliation pass, nor is an element written into a submodel it deletes. -/
theorem cycle_disjoint (hu : Unshared config snap) (w : World) :
    ∀ d ∈ (cleanupBasyxResources config snap host now w).log.drop w.log.length,
      ∀ c ∈ (cycle config snap host now w).log.drop
          (cleanupBasyxResources config snap host now w).log.length,
        ¬ d.target.Covers c.target := by
  obtain ⟨ds, hds, hd⟩ := (@sends_cleanup config snap host now w).log
  obtain ⟨cs, hcs, hc⟩ :=
    (@sends_reconcile config snap host now (cleanupBasyxResources config snap host now w)).log
  rw [cycle, hcs, hds]
  simp only [List.drop_left]
  exact fun d hd' c hc' => retired_authorized_disjoint hu (hd d hd') (hc c hc')

end Disjoint

/-- The features that `retireSnapshot` reports: `f` and `g` of `t`, and `f` of `x`. -/
theorem retireSnapshot_reports {s : SourceRule} {th : Thing} {fid : String} {d : Feature}
    (h : retireSnapshot.Reports s th fid d) :
    th.thingId = some "t" ∧ (fid = "f" ∨ fid = "g") ∨ th.thingId = some "x" ∧ fid = "f" := by
  obtain ⟨⟨ths, hths, hth⟩, feats, hF, he⟩ := h
  simp only [retireSnapshot, Option.some.injEq] at hths
  subst hths
  rcases List.mem_pair.mp hth with rfl | rfl
  · simp [retireSnapshot] at hF
    subst hF
    simp only [List.mem_cons, Prod.mk.injEq, List.mem_singleton, List.not_mem_nil, or_false] at he
    exact .inl ⟨rfl, he.imp And.left And.left⟩
  · simp [retireSnapshot] at hF
    subst hF
    simp only [List.mem_singleton, Prod.mk.injEq] at he
    exact .inr ⟨rfl, he.1⟩

/-- `retirePolicy` has one source rule, and the submodel ids `t:f`, `t:g` and `x:f` of what
`retireSnapshot` reports are distinct. -/
theorem retireSnapshot_unshared : Unshared retirePolicy retireSnapshot where
  thing s₁ h₁ s₂ h₂ _ _ _ _ _ _ _ := by
    simp only [retirePolicy, Config.sourceRules, Option.getD_some, List.mem_singleton] at h₁ h₂
    subst h₁ h₂
    exact ⟨rfl, rfl⟩
  submodel _ _ _ _ th₁ th₂ t₁ t₂ f₁ f₂ d₁ d₂ h₁ h₂ ht₁ ht₂ hk := by
    rcases retireSnapshot_reports h₁ with ⟨e₁, hf₁⟩ | ⟨e₁, rfl⟩ <;>
      rcases retireSnapshot_reports h₂ with ⟨e₂, hf₂⟩ | ⟨e₂, rfl⟩ <;>
      rw [e₁, Option.some.injEq] at ht₁ <;> rw [e₂, Option.some.injEq] at ht₂ <;> subst ht₁ ht₂ <;>
      (try rcases hf₁ with rfl | rfl) <;> (try rcases hf₂ with rfl | rfl) <;> revert hk <;> decide

/-- From an empty BaSyx, the cycle of `retirePolicy` deletes submodel `t:g` and element `q` of
`t:f`, then creates the shell of `t` and element `p` of `t:f`; none of its deletes covers a place
that its reconciliation writes. -/
theorem cycle_disjoint_retire :
    Unshared retirePolicy retireSnapshot ∧
      Call.deleteSubmodel (encodeId (submodelId "t" "g")) ∈
        (cleanupBasyxResources retirePolicy retireSnapshot host2000 0 ⟨.empty, []⟩).log.drop 0 ∧
      Call.deleteElement (encodeId (submodelId "t" "f")) "q" ∈
        (cleanupBasyxResources retirePolicy retireSnapshot host2000 0 ⟨.empty, []⟩).log.drop 0 ∧
      Call.createShell "t" ∈ (cycle retirePolicy retireSnapshot host2000 0 ⟨.empty, []⟩).log.drop
        (cleanupBasyxResources retirePolicy retireSnapshot host2000 0 ⟨.empty, []⟩).log.length ∧
      Call.createElement (encodeId (submodelId "t" "f")) "p" "" ∈
        (cycle retirePolicy retireSnapshot host2000 0 ⟨.empty, []⟩).log.drop
          (cleanupBasyxResources retirePolicy retireSnapshot host2000 0 ⟨.empty, []⟩).log.length ∧
      ∀ d ∈ (cleanupBasyxResources retirePolicy retireSnapshot host2000 0 ⟨.empty, []⟩).log.drop 0,
        ∀ c ∈ (cycle retirePolicy retireSnapshot host2000 0 ⟨.empty, []⟩).log.drop
            (cleanupBasyxResources retirePolicy retireSnapshot host2000 0 ⟨.empty, []⟩).log.length,
          ¬ d.target.Covers c.target :=
  ⟨retireSnapshot_unshared, by decide, by decide, by decide, by decide,
    cycle_disjoint retireSnapshot_unshared ⟨.empty, []⟩⟩

/-- Two source rules: `u1` without thing rules, and `u2` exporting every property of every
feature of every thing, with a downtime window in the year 2000. -/
def twoSourcePolicy : Config :=
  let window : Downtime := ⟨some "2000-01-01T00:00:00", some "2000-01-01T00:00:00"⟩
  { sources := some [{ source_url := some "u1" }, { source_url := some "u2", things := some [
      { thing_id := some "*", downtime := some window,
        features := some [{ feature_id := some "*", properties := some ["*"] }] }] }],
    basyx_url := some "b" }

/-- When both sources report thing `t`, the cleanup pass deletes its shell for `u1`, which exports
nothing of it, and the reconciliation pass creates it again for `u2`. -/
theorem cycle_recreates_deleted_shell :
    Call.deleteShell (encodeId "t") ∈
        (cleanupBasyxResources twoSourcePolicy oneThingSnapshot host2000 0 ⟨.empty, []⟩).log.drop 0 ∧
      Call.createShell "t" ∈ (cycle twoSourcePolicy oneThingSnapshot host2000 0 ⟨.empty, []⟩).log.drop
        (cleanupBasyxResources twoSourcePolicy oneThingSnapshot host2000 0 ⟨.empty, []⟩).log.length ∧
      (Call.deleteShell (encodeId "t")).target.Covers (Call.createShell "t").target :=
  ⟨by decide, by decide, rfl⟩

end TwinExporter

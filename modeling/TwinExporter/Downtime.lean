import TwinExporter.Provenance

/-!
# A downtime window deletes the twin

§2 calls a downtime window a time range during which a thing is excluded from export. In the code
the resolver answers `None` for every feature of a thing whose first matching thing rule is in its
window (`getExportConfig_of_inDowntime`), which is also its answer for a feature that no rule
configures, and `cleanup_basyx_resources` deletes what is not configured. So a round inside the
window does not leave the twin as it was: it deletes the thing's shell and the submodel of every
feature that its source reports, with all their element values (`cycle_clears_downtime`).

The proof is a frame argument over the cycle. A place that the cleanup pass deletes is absent
after it, and on an unshared policy no call of the reconciliation pass creates it again or writes
into it, so it is still absent after the cycle (`cycle_clear` of `Rerun.lean`). The cleanup pass
of a well-timed policy, when every fetch succeeds, sends the deletes of §4.5, and these include the
shell and the submodels of a thing none of whose features is exported
(`mem_expectedDeletes_of_unconfigured`).
-/

namespace TwinExporter

/-! ## The resolver in a downtime window -/

/-- The first thing rule that a lookup of thing `t` from source URL `url` visits, among the
matching rules of every source rule with that URL, is in its downtime window. -/
def Config.InDowntime (fromisoformat : String → Option DateTime) (now : Nat) (config : Config)
    (url t : String) : Prop :=
  (candidateRules url (some t) config).head?.bind (inDowntime fromisoformat now) = some true

instance (fromisoformat : String → Option DateTime) (now : Nat) (config : Config) (url t : String) :
    Decidable (config.InDowntime fromisoformat now url t) :=
  inferInstanceAs (Decidable (_ = _))

/-- A thing whose first matching thing rule is in its downtime window is not exported: each of its
features resolves to `None`, whatever the later rules say. -/
theorem getExportConfig_of_inDowntime {fromisoformat : String → Option DateTime} {now : Nat}
    {config : Config} {url t : String} (h : config.InDowntime fromisoformat now url t)
    (feature_id : String) :
    getExportConfig fromisoformat now url (some t) feature_id config = .unconfigured := by
  unfold Config.InDowntime at h
  cases hc : candidateRules url (some t) config with
  | nil => simp [hc] at h
  | cons r rs =>
    rw [hc, List.head?_cons, Option.some_bind] at h
    have hhalt : r.halts fromisoformat now feature_id = true := by
      simp [ThingRule.halts, ThingRule.decides, h]
    rw [getExportConfig_eq_halt, hc, List.find?_cons_of_pos _ hhalt]
    simp [ThingRule.result, ThingRule.outcome, h]

/-! ## What the cleanup pass deletes stays deleted -/

section Cycle

variable {config : Config} {snap : Snapshot} {host : Host} {now : Nat}

/-- On a well-timed policy with a BaSyx URL, when every fetch succeeds, the cleanup pass sends the
deletes of §4.5. -/
theorem mem_cleanupCalls (hc : config.WellTimed host.fromisoformat) (hs : snap.Serves config)
    (hb : config.basyxConfigured) {d : Call} :
    d ∈ cleanupCalls config snap host now ↔ d ∈ expectedDeletes config snap host now := by
  obtain ⟨q, hq, hp⟩ := removals_perm now hc hs
  simp only [cleanupCalls, hb, if_true, hq, Option.map_some', Option.getD_some]
  exact hp.mem_iff

/-- §4.5 deletes the shell of a reported thing with a non-empty id none of whose features is
exported, and the submodel of each of its features. -/
theorem mem_expectedDeletes_of_unconfigured {s : SourceRule} (hs₀ : s ∈ config.sourceRules)
    {th : Thing} {t : String} {feats : Dict Feature} (hth : snap.ReportsThing s th)
    (hid : th.thingId = some t) (ht : t ≠ "") (hF : snap.features s.url s.auth t = some feats)
    (hun : ∀ f, resolve config host now s.url (some t) f = .unconfigured) :
    Call.deleteShell (encodeId t) ∈ expectedDeletes config snap host now ∧
      ∀ e ∈ feats.entries,
        Call.deleteSubmodel (encodeId (submodelId t e.1)) ∈ expectedDeletes config snap host now := by
  obtain ⟨ths, hT, hmem⟩ := hth
  have hsub : ∀ c ∈ thingDeletes config snap host now s th,
      c ∈ expectedDeletes config snap host now :=
    fun c hc => List.mem_flatMap.mpr ⟨s, hs₀, List.mem_flatMap.mpr ⟨th, by simpa [hT] using hmem, hc⟩⟩
  refine ⟨hsub _ ?_, fun e he => hsub _ ?_⟩ <;>
    simp only [thingDeletes, hid, ht, if_false, hF, Option.map_some', Option.getD_some,
      expectedThingDeletes, submodelDeletes, hun, List.all_eq_true, decide_True, implies_true,
      if_true, List.filter_true, List.mem_append, List.mem_cons, List.mem_map]
  · exact .inl (.inl (.inl trivial))
  · exact .inl (.inr ⟨e, he, rfl⟩)

/-- A round inside a thing's downtime window deletes its twin. On a well-timed, unshared policy
with a BaSyx URL, when every fetch succeeds, a thing with a non-empty id that a source rule
reports, and whose first matching thing rule for that rule's URL is in its window, has no shell
after the cycle and no submodel for any feature that the rule reports, whatever BaSyx held. -/
theorem cycle_clears_downtime (hc : config.WellTimed host.fromisoformat) (hs : snap.Serves config)
    (hu : Unshared config snap) (hb : config.basyxConfigured) {s : SourceRule}
    (hs₀ : s ∈ config.sourceRules) {th : Thing} {t : String} (hth : snap.ReportsThing s th)
    (hid : th.thingId = some t) (ht : t ≠ "")
    (hdown : config.InDowntime host.fromisoformat now s.url t) (w : World) :
    (cycle config snap host now w).store.shells (encodeId t) = none ∧
      ∀ f d, snap.Reports s th f d →
        (cycle config snap host now w).store.submodels (encodeId (submodelId t f)) = none := by
  obtain ⟨ths, hT, hF⟩ := hs s hs₀
  obtain ⟨feats, hfeats⟩ := Option.isSome_iff_exists.mp
    (hF th (by obtain ⟨_, hT', hm⟩ := hth; rw [hT] at hT'; cases hT'; exact hm))
  rw [hid, pyFormat_some] at hfeats
  obtain ⟨hshell, hsub⟩ := mem_expectedDeletes_of_unconfigured hs₀ hth hid ht hfeats
    (getExportConfig_of_inDowntime hdown)
  refine ⟨?_, fun f d hr => ?_⟩
  · simpa [Call.target, Store.has] using
      cycle_clear hu w _ ((mem_cleanupCalls hc hs hb).mpr hshell)
  · obtain ⟨-, feats', hF', he⟩ := hr
    rw [hid, pyFormat_some, hfeats, Option.some.injEq] at hF'
    subst hF'
    simpa [Call.target, Store.has] using
      cycle_clear hu w _ ((mem_cleanupCalls hc hs hb).mpr (hsub _ he))

end Cycle

/-! ## The mirror policy at the first microsecond of 2000 -/

/-- At the one microsecond of `mirrorPolicy`'s window, a cycle from the mirrored twin of `t`
deletes its shell and the submodel `t:f`. -/
theorem cycle_clears_downtime_mirror :
    Unshared mirrorPolicy (valueSnapshot (.str "7")) ∧
      mirrorPolicy.InDowntime fromisoformat2000 63082281600000000 "u" "t" ∧
      (cycle mirrorPolicy (valueSnapshot (.str "7")) textHost 63082281600000000
          ⟨mirroredStore true, []⟩).store.shells (encodeId "t") = none ∧
      (cycle mirrorPolicy (valueSnapshot (.str "7")) textHost 63082281600000000
          ⟨mirroredStore true, []⟩).store.submodels (encodeId (submodelId "t" "f")) = none := by
  have hu := valueSnapshot_unshared (.str "7")
  have hdown : mirrorPolicy.InDowntime fromisoformat2000 63082281600000000 "u" "t" := by decide
  have hserves : (valueSnapshot (.str "7")).Serves mirrorPolicy := by
    simp [Snapshot.Serves, Snapshot.ServesRule, valueSnapshot]
  obtain ⟨s, hs₀, hurl⟩ : ∃ s ∈ mirrorPolicy.sourceRules, s.url = "u" :=
    ⟨_, List.mem_singleton_self _, rfl⟩
  have hth : (valueSnapshot (.str "7")).ReportsThing s ⟨some "t"⟩ :=
    ⟨_, rfl, List.mem_singleton_self _⟩
  have hdown' : mirrorPolicy.InDowntime textHost.fromisoformat 63082281600000000 s.url "t" :=
    hurl ▸ hdown
  obtain ⟨h₁, h₂⟩ := cycle_clears_downtime mirrorPolicy_wellTimed hserves hu rfl hs₀ hth rfl
    (by decide) hdown' ⟨mirroredStore true, []⟩
  exact ⟨hu, hdown, h₁, h₂ "f" _ ⟨hth, _, rfl, List.mem_singleton_self _⟩⟩

end TwinExporter

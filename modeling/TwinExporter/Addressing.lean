import TwinExporter.Rerun

/-!
# Identifiers address their own places

BaSyx is reached through tokens: the shell of thing `t` is at `encode_id(t)`, the submodel `t:f`
at `encode_id("t:f")`, and an element of it under the submodel's token (`Call.target`). This module
shows what the codec gives the registry.

| theorem | content |
|---|---|
| `encodeId_tokenChar` | a token has only letters, digits, `-`, `_` and `=` (`Codec.lean`) |
| `decode_encodeId` | URL-safe Base64 and UTF-8 decoding give the identifier back (`Codec.lean`) |
| `Store.apply_frame` | a call changes the shell and the submodel at its own token only |
| `sendAll_frame` | so do calls sent one after the other |
| `encodeId_addresses` | the codec facts, and that calls to one identifier leave the others' places |

The frame is on whole entries of the store: the references of a shell and the elements of a
submodel with their values, not only whether they are present.
-/

namespace TwinExporter

/-- The token a place is addressed by: that of a shell or a submodel, and an element's
submodel's. -/
def Slot.token : Slot → String
  | .shell k | .submodel k | .element k _ => k

section Frame

variable (σ : Store)

/-- A call changes the shell and the submodel at its own token only. -/
theorem Store.apply_frame {c : Call} {k : String} (h : c.target.token ≠ k) :
    (σ.apply c).2.shells k = σ.shells k ∧ (σ.apply c).2.submodels k = σ.submodels k := by
  have hk : ∀ k', k' = c.target.token → (k = k') = False :=
    fun k' e => eq_false fun e' => h (e ▸ e'.symm)
  cases c <;> simp only [Call.target, Slot.token] at hk <;> simp only [Store.apply] <;>
    repeat' split
  all_goals simp [Store.setShell, Store.setSubmodel, hk]

end Frame

/-- Calls sent one after the other, none addressed to token `k`, leave the shell and the submodel
at `k` as they were. -/
theorem sendAll_frame {cs : List Call} {k : String} (h : ∀ c ∈ cs, c.target.token ≠ k)
    (w : World) : (sendAll cs w).store.shells k = w.store.shells k ∧
      (sendAll cs w).store.submodels k = w.store.submodels k :=
  sendAll_store_induction (I := fun σ => σ.shells k = w.store.shells k ∧
      σ.submodels k = w.store.submodels k) cs w
    (fun c hc σ hσ =>
      ⟨(σ.apply_frame (h c hc)).1.trans hσ.1, (σ.apply_frame (h c hc)).2.trans hσ.2⟩)
    ⟨rfl, rfl⟩

/-- `encode_id` is a path-safe injective encoding: its tokens are written in the URL-safe alphabet,
decode back to the identifier, and the calls addressed to one identifier's token leave the shell
and the submodel of every other identifier as they were. -/
theorem encodeId_addresses (raw_id : String) :
    (∀ c ∈ (encodeId raw_id).toList, tokenChar c = true) ∧
      (urlsafeB64decode (encodeId raw_id)).bind decodeUtf8 = some raw_id.toList ∧
      ∀ other, other ≠ raw_id → encodeId other ≠ encodeId raw_id ∧
        ∀ (cs : List Call) (w : World), (∀ c ∈ cs, c.target.token = encodeId raw_id) →
          (sendAll cs w).store.shells (encodeId other) = w.store.shells (encodeId other) ∧
            (sendAll cs w).store.submodels (encodeId other) = w.store.submodels (encodeId other) :=
  ⟨encodeId_tokenChar raw_id, decode_encodeId raw_id, fun other hne =>
    have hk : encodeId other ≠ encodeId raw_id := fun e => hne (encodeId_injective e)
    ⟨hk, fun cs w hcs => @sendAll_frame cs _ (fun c hc => (hcs c hc).trans_ne hk.symm) w⟩⟩

end TwinExporter

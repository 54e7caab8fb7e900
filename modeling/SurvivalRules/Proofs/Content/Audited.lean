import SurvivalRules.CommandLine
import SurvivalRules.Proofs.Content.Loaded
import SurvivalRules.Proofs.Numeric.Numeral
import SurvivalRules.Proofs.State.Path

/-!
# Audited packs

An audit goes over the same files as loading does, but goes on after what it finds. As long as it has found no
error its content is that of loading at the same place, so a pack that passes is loaded to what was audited.
-/
namespace SurvivalRules

namespace Audit

variable {a a' a'' : Audit} {file : String} {group : RecordGroup}

/-- The audit goes from `a` to `a'` where loading takes a step. -/
structure Tracks (step : Content → Except ContentError Content) (a a' : Audit) : Prop where
  grows : a.findings <+: a'.findings
  loads : a'.passes = true → step a.content = .ok a'.content

theorem passes_iff : a.passes = true ↔ ∀ f ∈ a.findings, f.isError = false := by
  simp [passes]

section

variable {step next : Content → Except ContentError Content}

theorem Tracks.passes (h : Tracks step a a') (ha' : a'.passes = true) : a.passes = true :=
  passes_iff.mpr fun f hf => passes_iff.mp ha' f (h.grows.subset hf)

theorem Tracks.refl (a : Audit) : Tracks .ok a a := ⟨List.prefix_rfl, fun _ => rfl⟩

theorem Tracks.andThen (h : Tracks step a a') (hnext : Tracks next a' a'') :
    Tracks (fun c => step c >>= next) a a'' where
  grows := h.grows.trans hnext.grows
  loads ha'' := by
    rw [h.loads (hnext.passes ha'')]
    exact hnext.loads ha''

end

/-! ## Reading as loading does -/

theorem addRecord_mapping (a : Audit) (es : Tree) : a.addRecord group file (.mapping es) =
    match Definition.ofValue group (.mapping (group.tagged es)) with
    | .ok d => a.addDefinition file d
    | .invalid faults => .ok (a.report (.invalid file faults)) := by
  cases group <;> rfl

variable {c : Content}

end Audit

end SurvivalRules

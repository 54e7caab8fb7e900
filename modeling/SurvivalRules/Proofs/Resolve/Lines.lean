import SurvivalRules.Proofs.Resolve.Scaling

/-!
# What the scaling tells

The scaling of gains writes to the trace and never reads it. So its lines and its results are the same
behind any trace.
-/
namespace SurvivalRules

/-- A step of the scaling comes to `a` and tells `lines` about resources, whatever was told before. -/
structure Tells {α : Type} (f : Trace → Except Fault (α × Trace)) (a : α) (lines : List String) :
    Prop where
  about : ∀ line ∈ lines, ∃ rest, line = "resources." ++ rest
  eq_ok : ∀ t, f t = .ok (a, t.extend lines)

namespace Tells

variable {α β : Type}

theorem nothing (a : α) : Tells (fun t => .ok (a, t)) a [] := ⟨by simp, fun _ => rfl⟩

theorem andThen {f : Trace → Except Fault (α × Trace)} {g : α → Trace → Except Fault (β × Trace)}
    {a : α} {b : β} {lines more : List String} (hf : Tells f a lines) (hg : Tells (g a) b more) :
    Tells (fun t => f t >>= fun x => g x.1 x.2) b (lines ++ more) := by
  refine ⟨fun line hline => ?_, fun t => ?_⟩
  · rcases List.mem_append.mp hline with h | h
    · exact hf.about line h
    · exact hg.about line h
  · have htold : t.extend (lines ++ more) = (t.extend lines).extend more := List.foldl_append
    simp only [hf.eq_ok, bind, Except.bind, hg.eq_ok, htold]

end Tells

section

variable {state : Tree} {multiplier : Binary64} {amplify : Bool} {name : String} {new x : Amount}
  {t t' : Trace}

theorem exists_tells_multiplyGain {gain : Amount}
    (h : multiplyGain multiplier name new gain t = .ok (x, t')) :
    ∃ lines, Tells (multiplyGain multiplier name new gain) x lines := by
  unfold multiplyGain at h
  split at h
  next hone =>
    cases pure_eq_ok_iff.mp h
    refine ⟨[], by simp, fun u => ?_⟩
    simp only [multiplyGain, hone, if_true]
    rfl
  next hone =>
    obtain ⟨extra, hextra, h⟩ := bind_eq_ok_iff.mp h
    split at h
    next hzero =>
      cases pure_eq_ok_iff.mp h
      refine ⟨[], by simp, fun u => ?_⟩
      simp only [multiplyGain, if_neg hone, hextra, hzero, bind, Except.bind, if_true]
      rfl
    next hzero =>
      obtain ⟨sum, hsum, h⟩ := bind_eq_ok_iff.mp h
      obtain ⟨written, hwritten, h⟩ := bind_eq_ok_iff.mp h
      cases pure_eq_ok_iff.mp h
      refine ⟨["resources." ++ name ++ ": x" ++ multiplier.toBrief ++ " multiplier adds " ++ written],
        by simp [String.append_assoc], fun u => ?_⟩
      simp only [multiplyGain, if_neg hone, hextra, if_neg hzero, hsum, hwritten, bind, Except.bind]
      rfl

theorem exists_tells_amplifyGain {before : Amount} (h : amplifyGain name before new t = .ok (x, t')) :
    ∃ lines, Tells (amplifyGain name before new) x lines := by
  obtain ⟨gain, hgain, h⟩ := bind_eq_ok_iff.mp h
  obtain ⟨grown, hgrown, h⟩ := bind_eq_ok_iff.mp h
  obtain ⟨total, htotal, h⟩ := bind_eq_ok_iff.mp h
  obtain ⟨net, hnet, h⟩ := bind_eq_ok_iff.mp h
  obtain ⟨written, hwritten, h⟩ := bind_eq_ok_iff.mp h
  cases pure_eq_ok_iff.mp h
  refine ⟨[s!"resources.{name}: amplified gain to " ++ written], ?_, fun u => ?_⟩
  · simp [toString, String.append_assoc]
  · simp only [amplifyGain, hgain, hgrown, htotal, hnet, hwritten, bind, Except.bind]
    rfl

theorem exists_tells_scaleGain (h : scaleGain state multiplier amplify name new t = .ok (x, t')) :
    ∃ lines, Tells (scaleGain state multiplier amplify name new) x lines := by
  obtain ⟨before, hbefore, h⟩ := bind_eq_ok_iff.mp h
  obtain ⟨gain, hgain, h⟩ := bind_eq_ok_iff.mp h
  have hscale : scaleGain state multiplier amplify name new = fun u =>
      if gain.le .zero then .ok (new, u)
      else multiplyGain multiplier name new gain u >>= fun e =>
        if amplify then amplifyGain name before e.1 e.2 else .ok e := by
    funext u
    simp only [scaleGain, hbefore, hgain, bind, Except.bind]
    rfl
  rw [hscale]
  split at h
  next hle =>
    cases pure_eq_ok_iff.mp h
    simp only [hle, if_true]
    exact ⟨[], Tells.nothing new⟩
  next hle =>
    simp only [if_neg hle]
    obtain ⟨⟨grown, t₁⟩, hfirst, h⟩ := bind_eq_ok_iff.mp h
    obtain ⟨lines, hlines⟩ := exists_tells_multiplyGain hfirst
    dsimp only at h
    split at h
    next hamplify =>
      obtain ⟨more, hmore⟩ := exists_tells_amplifyGain h
      simp only [hamplify, if_true]
      exact ⟨lines ++ more, hlines.andThen hmore⟩
    next hamplify =>
      cases pure_eq_ok_iff.mp h
      simp only [if_neg hamplify]
      exact ⟨lines ++ [], hlines.andThen (g := fun a u => .ok (a, u)) (Tells.nothing _)⟩

theorem exists_tells_scaleEntries {entries scaled : Tree}
    (h : scaleEntries state multiplier amplify entries t = .ok (scaled, t')) :
    ∃ lines, Tells (scaleEntries state multiplier amplify entries) scaled lines := by
  induction entries generalizing scaled t with
  | nil =>
    cases h
    exact ⟨[], Tells.nothing []⟩
  | cons e rest ih =>
    obtain ⟨key, v⟩ := e
    unfold scaleEntries at h
    obtain ⟨⟨w, t₁⟩, hfirst, h⟩ := bind_eq_ok_iff.mp h
    obtain ⟨⟨more, t₂⟩, hmore, h⟩ := bind_eq_ok_iff.mp h
    cases pure_eq_ok_iff.mp h
    obtain ⟨others, hothers⟩ := ih hmore
    have hrest : Tells (fun u => scaleEntries state multiplier amplify rest u >>= fun e =>
        .ok ((key, w) :: e.1, e.2)) ((key, w) :: more) (others ++ []) :=
      hothers.andThen (g := fun es u => .ok ((key, w) :: es, u)) (Tells.nothing _)
    cases hamount : v.amount? with
    | none =>
      simp only [hamount] at hfirst
      cases pure_eq_ok_iff.mp hfirst
      refine ⟨others ++ [], hrest.about, fun u => ?_⟩
      simp only [scaleEntries, hamount]
      exact hrest.eq_ok u
    | some new =>
      simp only [hamount] at hfirst
      obtain ⟨⟨x, t₃⟩, hgain, h⟩ := bind_eq_ok_iff.mp hfirst
      cases pure_eq_ok_iff.mp h
      obtain ⟨lines, hlines⟩ := exists_tells_scaleGain hgain
      have hvalue := hlines.andThen (g := fun a u => .ok (Value.ofAmount a, u)) (Tells.nothing _)
      have hall := hvalue.andThen (g := fun w u =>
        scaleEntries state multiplier amplify rest u >>= fun e => .ok ((key, w) :: e.1, e.2)) hrest
      refine ⟨_, hall.about, fun u => ?_⟩
      simp only [scaleEntries, hamount]
      exact hall.eq_ok u

/-- The scaling makes the same of every progress with the same delta, and tells the same. -/
theorem exists_lines_of_scaleGains {p p' : Progress} (h : scaleGains state multiplier amplify p = .ok p') :
    ∃ lines, (∀ line ∈ lines, ∃ rest, line = "resources." ++ rest) ∧
      ∀ q : Progress, q.delta = p.delta → scaleGains state multiplier amplify q =
        .ok { q with delta := p'.delta, trace := q.trace.extend lines } := by
  unfold scaleGains at h
  split at h
  next entries hentries =>
    obtain ⟨⟨scaled, t'⟩, hscaled, h⟩ := bind_eq_ok_iff.mp h
    cases pure_eq_ok_iff.mp h
    obtain ⟨lines, hlines⟩ := exists_tells_scaleEntries hscaled
    refine ⟨lines, hlines.about, fun q hq => ?_⟩
    simp only [scaleGains, hq, hentries, hlines.eq_ok, bind, Except.bind]
    rfl
  next hother =>
    cases h
    refine ⟨[], by simp, fun q hq => ?_⟩
    unfold scaleGains
    rw [hq]
    split
    next entries hentries => exact absurd hentries (hother entries)
    next => rw [← hq]; rfl

end

end SurvivalRules

import SurvivalRules.Proofs.Gate
import SurvivalRules.Proofs.Store.Commit

/-!
# The outcomes of a dispatch

An action is done exactly when the gate lets it through, its effects resolve and its commit goes through. In
every other case the state stays as it was, and while the gate holds the action back nothing at all changes.
-/
namespace SurvivalRules.Store

open Drawing

variable {s s' : Store} {id : String}

/-- The answer to an action that cannot be done: the reasons, unless these cannot be told. -/
def refusal (s : Store) (id : String) : Except StateError Verdict :=
  (liftFault (Gate.unmetRequirements s.content id s.state)).map .rejected

def withDraws (s : Store) (d : Draws) : Store := { s with draws := d }

theorem dispatch_of_not_executable (h : s.isExecutable id = .ok false) :
    s.dispatch id = (s.refusal id, s) := by
  have hgate : Gate.isExecutable s.content id s.state = .ok false := h
  have hadmission : s.admission id =
      (Gate.unmetRequirements s.content id s.state).map Except.error := by
    simp only [admission, hgate, bind, Except.bind, Bool.false_eq_true, if_false]
    cases Gate.unmetRequirements s.content id s.state <;> rfl
  unfold dispatch refusal
  rw [hadmission]
  cases Gate.unmetRequirements s.content id s.state <;> rfl

theorem dispatch_of_executable {cooldown : Binary64} (h : s.isExecutable id = .ok true)
    (hcooldown : Gate.effectiveCooldown s.content id s.state = .ok cooldown) :
    s.dispatch id = ((s.perform id cooldown).1.map .performed, (s.perform id cooldown).2) := by
  have hgate : Gate.isExecutable s.content id s.state = .ok true := h
  have hadmission : s.admission id = .ok (.ok cooldown) := by
    simp only [admission, hgate, hcooldown, bind, Except.bind, if_true]
    rfl
  unfold dispatch
  rw [hadmission]

theorem perform_of_fails {cooldown : Binary64} {cause : Fault} {d : Draws}
    (h : runFrom (resolve s.content id s.state s.amplify) s.draws = (.error cause, d)) :
    s.perform id cooldown = (.error (.fault cause), s.withDraws d) := by
  have hrun : (resolve s.content id s.state s.amplify).run.run s.draws = (.error cause, d) := h
  simp only [perform, hrun]
  rfl

theorem perform_of_commit_error {cooldown : Binary64} {r : Resolution} {d : Draws} {cause : StateError}
    (h : Returns (resolve s.content id s.state s.amplify) s.draws r d)
    (hcommit : (s.withDraws d).commit id cooldown r = .error cause) :
    s.perform id cooldown = (.error cause, s.withDraws d) := by
  have hrun : (resolve s.content id s.state s.amplify).run.run s.draws = (.ok r, d) := h
  unfold withDraws at hcommit
  simp only [perform, hrun, hcommit]
  rfl

theorem perform_of_commit {cooldown : Binary64} {r : Resolution} {d : Draws}
    (h : Returns (resolve s.content id s.state s.amplify) s.draws r d)
    (hcommit : (s.withDraws d).commit id cooldown r = .ok s') :
    s.perform id cooldown = (.ok (performedOf cooldown r), s') := by
  have hrun : (resolve s.content id s.state s.amplify).run.run s.draws = (.ok r, d) := h
  unfold withDraws at hcommit
  simp only [perform, hrun, hcommit]

theorem perform_ok_spec {cooldown : Binary64} {result : Performed}
    (h : s.perform id cooldown = (.ok result, s')) :
    ∃ r d, Returns (resolve s.content id s.state s.amplify) s.draws r d ∧
      (s.withDraws d).commit id cooldown r = .ok s' ∧ result = performedOf cooldown r := by
  rcases hrun : runFrom (resolve s.content id s.state s.amplify) s.draws with ⟨cause | r, d⟩
  · rw [perform_of_fails hrun] at h
    cases h
  · cases hcommit : (s.withDraws d).commit id cooldown r with
    | error cause =>
      rw [perform_of_commit_error hrun hcommit] at h
      cases h
    | ok next =>
      rw [perform_of_commit hrun hcommit] at h
      cases h
      exact ⟨r, d, hrun, hcommit, rfl⟩

theorem perform_error_spec {cooldown : Binary64} {cause : StateError}
    (h : s.perform id cooldown = (.error cause, s')) : s'.state = s.state ∧ s'.content = s.content := by
  rcases hrun : runFrom (resolve s.content id s.state s.amplify) s.draws with ⟨fault | r, d⟩
  · rw [perform_of_fails hrun] at h
    cases h
    exact ⟨rfl, rfl⟩
  · cases hcommit : (s.withDraws d).commit id cooldown r with
    | error refused =>
      rw [perform_of_commit_error hrun hcommit] at h
      cases h
      exact ⟨rfl, rfl⟩
    | ok next =>
      rw [perform_of_commit hrun hcommit] at h
      cases h

theorem admission_ok_spec {cooldown : Binary64} (h : s.admission id = .ok (.ok cooldown)) :
    s.isExecutable id = .ok true ∧ Gate.effectiveCooldown s.content id s.state = .ok cooldown := by
  obtain ⟨executable, hexec, hrest⟩ := bind_eq_ok_iff.mp h
  cases executable with
  | false =>
    obtain ⟨reasons, -, hlast⟩ := bind_eq_ok_iff.mp hrest
    cases pure_eq_ok_iff.mp hlast
  | true =>
    obtain ⟨effective, heffective, hlast⟩ := bind_eq_ok_iff.mp hrest
    cases pure_eq_ok_iff.mp hlast
    exact ⟨hexec, heffective⟩

/-- What has gone through when an action was done. -/
theorem dispatch_performed_spec {result : Performed}
    (h : s.dispatch id = (.ok (.performed result), s')) :
    s.isExecutable id = .ok true ∧ ∃ cooldown r d,
      Gate.effectiveCooldown s.content id s.state = .ok cooldown ∧
      Returns (resolve s.content id s.state s.amplify) s.draws r d ∧
      (s.withDraws d).commit id cooldown r = .ok s' ∧ result = performedOf cooldown r := by
  unfold dispatch at h
  split at h
  · cases h
  · cases h
  next cooldown hadmission =>
    obtain ⟨hexec, heffective⟩ := admission_ok_spec hadmission
    dsimp only at h
    obtain ⟨hresult, hstore⟩ := Prod.mk.inj h
    cases hperform : (s.perform id cooldown).1 with
    | error cause =>
      rw [hperform] at hresult
      cases hresult
    | ok performed =>
      rw [hperform] at hresult
      cases hresult
      obtain ⟨r, d, hres, hcommit, he⟩ := perform_ok_spec (Prod.ext hperform hstore)
      exact ⟨hexec, cooldown, r, d, heffective, hres, hcommit, he⟩

theorem exists_delta_of_dispatch {result : Performed}
    (h : s.dispatch id = (.ok (.performed result), s')) :
    s.isExecutable id = .ok true ∧ ∃ r d delta,
      Returns (resolve s.content id s.state s.amplify) s.draws r d ∧
      recordAll s.state r.delta (bookkeeping id result.cooldown) = .ok delta ∧
      s'.state = committed s.state delta ∧ s'.content = s.content := by
  obtain ⟨hexec, cooldown, r, d, -, hres, hcommit, rfl⟩ := dispatch_performed_spec h
  obtain ⟨delta, hrecord, hstate, hcontent⟩ := exists_delta_of_commit hcommit
  exact ⟨hexec, r, d, delta, hres, hrecord, hstate, hcontent⟩

/-- A dispatch keeps the names of a section apart. -/
theorem distinctAt_dispatch {result : Performed} {k : String} (hd : s.state.DistinctAt k)
    (hdone : s.dispatch id = (.ok (.performed result), s')) : s'.state.DistinctAt k := by
  obtain ⟨-, r, d, delta, hres, hrecord, hstate, -⟩ := exists_delta_of_dispatch hdone
  rw [hstate]
  exact distinctAt_committed (tidyAt_bookkeeping hd (tidyAt_resolve hd hres) hrecord) hd

/-- An action that was not done leaves the state and the content alone. -/
theorem dispatch_not_performed_spec {answer : Except StateError Verdict}
    (h : s.dispatch id = (answer, s')) (hanswer : ∀ result, answer ≠ .ok (.performed result)) :
    s'.state = s.state ∧ s'.content = s.content := by
  unfold dispatch at h
  split at h
  · cases h
    exact ⟨rfl, rfl⟩
  · cases h
    exact ⟨rfl, rfl⟩
  next cooldown hadmission =>
    dsimp only at h
    obtain ⟨hresult, hstore⟩ := Prod.mk.inj h
    cases hperform : (s.perform id cooldown).1 with
    | error cause => exact perform_error_spec (Prod.ext hperform hstore)
    | ok performed =>
      rw [hperform] at hresult
      exact absurd hresult.symm (hanswer performed)

theorem dispatch_cases (s : Store) (id : String) :
    (∃ result, s.dispatch id = (.ok (.performed result), (s.dispatch id).2)) ∨
      (s.dispatch id).2.state = s.state ∧ (s.dispatch id).2.content = s.content := by
  by_cases h : ∃ result, (s.dispatch id).1 = .ok (.performed result)
  · obtain ⟨result, hresult⟩ := h
    exact Or.inl ⟨result, Prod.ext hresult rfl⟩
  · exact Or.inr (dispatch_not_performed_spec rfl fun result he => h ⟨result, he⟩)

end SurvivalRules.Store

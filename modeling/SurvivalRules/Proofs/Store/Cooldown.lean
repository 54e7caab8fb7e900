import SurvivalRules.Content.Audit
import SurvivalRules.Proofs.Store.Dispatch

/-!
# When a cooldown takes hold

The store writes a cooldown at a path made of the id, and the gate reads it under the id as a plain key. The
two agree exactly when the id is a single segment of a path: any other id is refused as a path, or cut into
several segments, and then the action is not held back.
-/
namespace SurvivalRules

open Drawing

namespace Gate

variable {id : String} {state : Tree}

/-- The time that is left of a timer by its value. -/
def timeLeft (v : Value) : Except Fault Binary64 := do
  let n ← if v.isNull then pure Binary64.zero else v.toNumber
  return if n.isNaN then Binary64.zero else n

theorem cooldownRemaining_eq (id : String) (state : Tree) :
    cooldownRemaining id state =
      state.section? Section.cooldowns.name >>= fun timers => timeLeft (timers.lookup id) := rfl

theorem cooldownRemaining_of_lookup {timers : Tree}
    (h : state.lookup Section.cooldowns.name = .mapping timers) :
    cooldownRemaining id state = timeLeft (timers.lookup id) := by
  rw [cooldownRemaining_eq, Tree.section?_of_lookup h]
  rfl

theorem timeLeft_of_remaining {left : Binary64} (h : cooldownRemaining id state = .ok left) :
    timeLeft (Tree.lookup (state.lookup "cooldowns").entries id) = .ok left := by
  rw [cooldownRemaining_eq] at h
  obtain ⟨timers, htimers, hleft⟩ := bind_eq_ok_iff.mp h
  have hentries : (state.lookup "cooldowns").entries = timers := Tree.entries_of_section?_eq_ok htimers
  rwa [hentries]

theorem timeLeft_float {x : Binary64} (h : Amount.zero.lt (.float x) = true) :
    timeLeft (.float x) = .ok x := by
  cases x with
  | nan => exact absurd h (by decide)
  | _ => rfl

theorem isCoolingDown_of_remaining {left : Binary64} (h : cooldownRemaining id state = .ok left) :
    isCoolingDown id state = .ok (Amount.zero.lt (.float left)) := by
  simp only [isCoolingDown, h, bind, Except.bind, pure, Except.pure]

theorem not_executable_of_remaining (c : Content) {left : Binary64}
    (h : cooldownRemaining id state = .ok left) (hlt : Amount.zero.lt (.float left) = true) :
    isExecutable c id state = .ok false := by
  unfold isExecutable
  split
  · rfl
  · rw [isCoolingDown_of_remaining h, hlt]
    rfl

end Gate

/-- A text whose pieces are all segments is a name, or it has a dot. -/
theorem StatePath.isName_or_dot_mem {s : String} (h : ∀ cs ∈ segments s, isSegment cs = true) :
    IsName s ∨ '.' ∈ s.toList := by
  by_cases hdot : '.' ∈ s.toList
  · exact Or.inr hdot
  · left
    have hone : segments s = [s.toList] := Text.splitAtChar_of_not_mem hdot
    exact h s.toList (by simp [hone])

namespace Store

variable {s s' : Store} {id : String} {cooldown : Binary64} {state delta delta' : Tree} {r : Resolution}

theorem exists_recordAll_iff {writes : List (String × Value)} :
    (∃ delta', recordAll state delta writes = .ok delta') ↔
      ∀ w ∈ writes, ∃ q, StatePath.parse w.1 = .ok q := by
  induction writes generalizing delta with
  | nil => exact ⟨fun _ => by simp, fun _ => ⟨delta, rfl⟩⟩
  | cons w rest ih =>
    simp only [List.forall_mem_cons]
    constructor
    · rintro ⟨delta', h⟩
      obtain ⟨delta₁, hfirst, hrest⟩ := bind_eq_ok_iff.mp h
      obtain ⟨q, hq, -⟩ := record_eq_ok_iff.mp hfirst
      exact ⟨⟨q, hq⟩, ih.mp ⟨delta', hrest⟩⟩
    · rintro ⟨⟨q, hq⟩, hrest⟩
      obtain ⟨delta', hdelta'⟩ := ih.mpr hrest
      exact ⟨delta', bind_eq_ok_iff.mpr ⟨_, record_eq_ok_iff.mpr ⟨q, hq, rfl⟩, hdelta'⟩⟩

theorem exists_commit_iff :
    (∃ next, s.commit id cooldown r = .ok next) ↔
      ∀ w ∈ bookkeeping id cooldown, ∃ q, StatePath.parse w.1 = .ok q := by
  have hrecorded := @exists_recordAll_iff s.state r.delta (bookkeeping id cooldown)
  rw [← hrecorded]
  constructor
  · rintro ⟨next, h⟩
    obtain ⟨delta, hdelta, -⟩ := bind_eq_ok_iff.mp h
    exact ⟨delta, hdelta⟩
  · rintro ⟨delta, hdelta⟩
    exact ⟨_, bind_eq_ok_iff.mpr ⟨delta, hdelta, rfl⟩⟩

theorem record_name_spec {path area name : String} {v : Value}
    (hpath : StatePath.parse path = .ok ⟨path, area, [name]⟩)
    (h : record delta state path v = .ok delta') :
    area ∈ OrderedMap.keys delta' ∧
      delta'.lookup area = .mapping (OrderedMap.insert name v (Delta.base delta state area)) ∧
      ∀ k, area ≠ k → SameSection k delta delta' := by
  obtain ⟨q, hq, rfl⟩ := record_eq_ok_iff.mp h
  cases hpath.symm.trans hq
  exact ⟨Delta.head_mem_keys_set delta state ⟨path, area, [name]⟩ v,
    Delta.lookup_set_name rfl delta state v, fun k hne => sameSection_set hne state delta v⟩

/-- An id that is a name gets its timer and the length of its cooldown under itself. -/
theorem lookup_own_timer (hname : StatePath.IsName id) (hlt : Amount.zero.lt (.float cooldown) = true)
    (h : recordAll state delta (bookkeeping id cooldown) = .ok delta') {k : String}
    (hk : k = "cooldowns" ∨ k = "cooldownDurations") :
    k ∈ OrderedMap.keys delta' ∧ delta'.lookup k =
      .mapping (OrderedMap.insert id (.float cooldown) (Delta.base delta state k)) := by
  have htimers := StatePath.parse_append_of_isName (show StatePath.IsName "cooldowns" by decide) hname
  have hlengths :=
    StatePath.parse_append_of_isName (show StatePath.IsName "cooldownDurations" by decide) hname
  rw [bookkeeping, if_pos hlt] at h
  obtain ⟨delta₁, hfirst, h⟩ := bind_eq_ok_iff.mp h
  obtain ⟨delta₂, hsecond, h⟩ := bind_eq_ok_iff.mp h
  obtain ⟨delta₃, hthird, h⟩ := bind_eq_ok_iff.mp h
  cases h
  -- the record of the action comes first and leaves both sections of cooldowns alone
  have hseen : ∀ k, k ≠ "story" → delta₁.lookup k = delta.lookup k := by
    obtain ⟨q, hq, rfl⟩ := record_eq_ok_iff.mp hfirst
    have hstory := (StatePath.keys_of_parse_append (show '.' ∉ "story".toList by decide)
      (seen_path _ ▸ hq)).1
    exact fun k hne => (sameSection_set (fun he => hne (he.symm.trans hstory)) state delta _).1
  obtain ⟨hmem₂, hlook₂, hsame₂⟩ := record_name_spec htimers hsecond
  obtain ⟨hmem₃, hlook₃, hsame₃⟩ := record_name_spec hlengths hthird
  rcases hk with rfl | rfl
  · have hkept := hsame₃ "cooldowns" (by decide)
    exact ⟨hkept.2.mpr hmem₂, by
      rw [hkept.1, hlook₂, Delta.base_congr (hseen _ (by decide)) state]⟩
  · have hkept := hsame₂ "cooldownDurations" (by decide)
    exact ⟨hmem₃, by
      rw [hlook₃, Delta.base_congr (hkept.1.trans (hseen _ (by decide))) state]⟩

theorem forall_bookkeeping_parses (hseen : ∃ q, StatePath.parse ("story.seen." ++ seenKey id) = .ok q)
    (hname : Amount.zero.lt (.float cooldown) = true → StatePath.IsName id) :
    ∀ w ∈ bookkeeping id cooldown, ∃ q, StatePath.parse w.1 = .ok q := by
  unfold bookkeeping
  split
  next hlt =>
    have htimers := StatePath.parse_append_of_isName (show StatePath.IsName "cooldowns" by decide)
      (hname hlt)
    have hlengths :=
      StatePath.parse_append_of_isName (show StatePath.IsName "cooldownDurations" by decide) (hname hlt)
    simp only [List.forall_mem_cons, List.not_mem_nil, false_implies, implies_true, and_true]
    exact ⟨hseen, ⟨_, htimers⟩, _, hlengths⟩
  next => simpa using hseen

theorem remaining_of_commit {c : Content} {amplify : Bool} {d d' : Draws} (hd : s.state.Distinct)
    (hres : Returns (resolve c id s.state amplify) d r d') (hname : StatePath.IsName id)
    (hlt : Amount.zero.lt (.float cooldown) = true) (hcommit : s.commit id cooldown r = .ok s') :
    Gate.cooldownRemaining id s'.state = .ok cooldown := by
  obtain ⟨delta, hrecord, hstate, -⟩ := exists_delta_of_commit hcommit
  have htidy := tidy_bookkeeping hd (tidy_resolve hd hres) hrecord
  obtain ⟨hmem, htimers⟩ := lookup_own_timer hname hlt hrecord (Or.inl rfl)
  have hlook := lookup_committed htidy (show "cooldowns" ≠ Section.resources.name by decide)
  rw [if_pos hmem, htimers] at hlook
  rw [hstate, Gate.cooldownRemaining_of_lookup hlook, Tree.lookup_insert_self]
  exact Gate.timeLeft_float hlt

/-- The delta has under `id` the timer that the state has, as far as it holds the timers. -/
def KeepsTimer (id : String) (state delta : Tree) : Prop :=
  ∀ timers, delta.lookup "cooldowns" = .mapping timers →
    Tree.lookup timers id = Tree.lookup (state.lookup "cooldowns").entries id

theorem keepsTimer_set {raw : String} {q : StatePath} {v : Value} (hdot : '.' ∈ id.toList)
    (hq : StatePath.parse raw = .ok q) (hv : q.rest ≠ [] ∨ v.mapping? = none)
    (h : KeepsTimer id state delta) : KeepsTimer id state (Delta.set delta state q v) := by
  intro timers htimers
  by_cases hhead : q.head = "cooldowns"
  · by_cases hrest : q.rest = []
    · rw [Delta.set_of_rest_eq_nil delta state hrest, hhead, Tree.lookup_insert_self] at htimers
      subst htimers
      exact absurd hv (by simp [hrest, Value.mapping?])
    · obtain ⟨k, ks, hks⟩ := List.exists_cons_of_ne_nil hrest
      have hne : k ≠ id := by
        rintro rfl
        exact StatePath.dot_not_mem_of_mem_keys hq (by simp [StatePath.keys, hks]) hdot
      rw [Delta.set_of_rest_ne_nil delta state hrest, hhead, Tree.lookup_insert_self, hks] at htimers
      cases htimers
      rw [Tree.lookup_write_of_ne hne]
      unfold Delta.base
      split
      next es hes => exact h es hes
      next => rfl
  · rw [(sameSection_set hhead state delta v).1] at htimers
    exact h timers htimers

theorem keepsTimer_resolve {c : Content} {amplify : Bool} {d d' : Draws} (hdot : '.' ∈ id.toList)
    (h : Returns (resolve c id state amplify) d r d') : KeepsTimer id state r.delta := by
  have hnil : KeepsTimer id state [] := by
    intro timers htimers
    cases htimers
  cases ha : c.action? id with
  | none =>
    simp only [resolve, ha] at h
    obtain ⟨rfl, -⟩ := returns_pure_iff.mp h
    exact hnil
  | some a =>
    refine resolve_induction (motive := KeepsTimer id state) ha h hnil ?_ ?_
    · exact fun _ _ e _ q hq v hv delta hkeeps => keepsTimer_set hdot hq (Or.inr hv) hkeeps
    · intro delta entries scaled _ _ hkeeps timers htimers
      rw [Tree.lookup_insert_of_ne (by decide)] at htimers
      exact hkeeps timers htimers

/-- An action whose id has a dot is not held back after it is done. -/
theorem not_cooling_of_dot {c : Content} {amplify : Bool} {d d' : Draws} {left : Binary64}
    (hdot : '.' ∈ id.toList) (hd : state.Distinct)
    (hres : Returns (resolve c id state amplify) d r d')
    (hrecord : recordAll state r.delta (bookkeeping id cooldown) = .ok delta')
    (hready : Gate.isCoolingDown id state = .ok false)
    (hleft : Gate.cooldownRemaining id (committed state delta') = .ok left) :
    Amount.zero.lt (.float left) = false := by
  have hkeeps : KeepsTimer id state delta' := by
    refine recordAll_induction (motive := KeepsTimer id state) ?_ hrecord (keepsTimer_resolve hdot hres)
    exact fun w hw q hq delta => keepsTimer_set hdot hq (Or.inl (bookkeeping_spec hw hq).1)
  have htidy := tidy_bookkeeping hd (tidy_resolve hd hres) hrecord
  have hlook := lookup_committed htidy (show "cooldowns" ≠ Section.resources.name by decide)
  obtain ⟨before, hbefore, hlast⟩ := bind_eq_ok_iff.mp hready
  have hstopped : Amount.zero.lt (.float before) = false := pure_eq_ok_iff.mp hlast
  have hold := Gate.timeLeft_of_remaining hbefore
  have hnew := Gate.timeLeft_of_remaining hleft
  -- effects can make the section a number, and then it has no timers
  have hcases : Tree.lookup ((committed state delta').lookup "cooldowns").entries id =
        Tree.lookup (state.lookup "cooldowns").entries id ∨
      Tree.lookup ((committed state delta').lookup "cooldowns").entries id = .null := by
    rw [hlook]
    split
    · cases hv : delta'.lookup "cooldowns" with
      | mapping timers => exact Or.inl (hkeeps timers hv)
      | _ => exact Or.inr rfl
    · exact Or.inl rfl
  rcases hcases with he | he
  · rw [he, hold] at hnew
    cases hnew
    exact hstopped
  · rw [he] at hnew
    cases hnew
    decide

/-- An action that can be done and resolves is done, and then held back for its cooldown, exactly when the
record of it has a path and the id of an action with a cooldown is a name. -/
theorem dispatch_takes_hold_iff {d : Draws} (hd : s.state.Distinct)
    (hexec : s.isExecutable id = .ok true)
    (hres : Returns (resolve s.content id s.state s.amplify) s.draws r d) :
    (∃ result s', s.dispatch id = (.ok (.performed result), s') ∧
        (Amount.zero.lt (.float result.cooldown) = true →
          Gate.cooldownRemaining id s'.state = .ok result.cooldown ∧
            s'.dispatch id = (s'.refusal id, s'))) ↔
      ∃ cooldown, Gate.effectiveCooldown s.content id s.state = .ok cooldown ∧
        (∃ q, StatePath.parse ("story.seen." ++ seenKey id) = .ok q) ∧
        (Amount.zero.lt (.float cooldown) = true → StatePath.IsName id) := by
  constructor
  · rintro ⟨result, s', hdispatch, hholds⟩
    obtain ⟨-, cooldown, r', d', hcooldown, hres', hcommit, rfl⟩ := dispatch_performed_spec hdispatch
    obtain ⟨rfl, rfl⟩ := returns_unique hres hres'
    have hpaths := exists_commit_iff.mp ⟨s', hcommit⟩
    refine ⟨cooldown, hcooldown, hpaths _ List.mem_cons_self, fun hlt => ?_⟩
    -- an id that parses without being a name has a dot, and its timer is never written
    obtain ⟨q, hq⟩ := hpaths ("cooldowns." ++ id, .float cooldown) (by simp [bookkeeping, hlt])
    have hsegments :=
      StatePath.segments_of_parse_append (show '.' ∉ "cooldowns".toList by decide) hq
    refine (StatePath.isName_or_dot_mem hsegments).resolve_right fun hdot => ?_
    obtain ⟨delta, hrecord, hstate, -⟩ := exists_delta_of_commit hcommit
    obtain ⟨hleft, -⟩ := hholds hlt
    rw [hstate] at hleft
    have hstopped := not_cooling_of_dot hdot hd hres hrecord (Gate.isExecutable_spec hexec).1 hleft
    exact absurd hlt (by rw [performedOf] at hstopped; simp [hstopped])
  · rintro ⟨cooldown, hcooldown, hseen, hname⟩
    obtain ⟨s', hcommit⟩ := (exists_commit_iff (s := s.withDraws d) (r := r)).mpr
      (forall_bookkeeping_parses hseen hname)
    have hperform : s.perform id cooldown = (.ok (performedOf cooldown r), s') :=
      perform_of_commit hres hcommit
    refine ⟨performedOf cooldown r, s', ?_, fun hlt => ?_⟩
    · rw [dispatch_of_executable hexec hcooldown, hperform]
      rfl
    · have hrunning : Amount.zero.lt (.float cooldown) = true := hlt
      have hleft := remaining_of_commit (s := s.withDraws d) hd hres (hname hlt) hrunning hcommit
      exact ⟨hleft, dispatch_of_not_executable (Gate.not_executable_of_remaining s'.content hleft hlt)⟩

/-- An action without requirements, costs and effects, and with a cooldown of ten seconds. -/
def fireNamed (id : String) : Action where
  id := id
  label := "Fire"
  description := ""
  category := none
  statsEffects := []
  craftingCostReduction := Binary64.zero
  buildingCostReduction := Binary64.zero
  plan := .flat ⟨some [], [], [], Binary64.ofInt 10⟩

def fireContent : Content :=
  ⟨["fire", "camp.fire", "light fire"].map fun id => (id, fireNamed id), [], [], []⟩

def fireStore : Store := start fireContent [] zeroDraws false

def fireDone : Performed := ⟨[], [], Binary64.ofInt 10, []⟩

theorem fire_takes_hold :
    ∃ result s', fireStore.dispatch "fire" = (.ok (.performed result), s') ∧
      (Amount.zero.lt (.float result.cooldown) = true →
        Gate.cooldownRemaining "fire" s'.state = .ok result.cooldown ∧
          s'.dispatch "fire" = (s'.refusal "fire", s')) := by
  have hexec : fireStore.isExecutable "fire" = .ok true := by decide +kernel
  have hres : Returns (resolve fireStore.content "fire" fireStore.state fireStore.amplify)
      fireStore.draws ⟨[], [], [], []⟩ zeroDraws := by decide +kernel
  have hcooldown : Gate.effectiveCooldown fireStore.content "fire" fireStore.state =
      .ok (Binary64.ofInt 10) := by decide +kernel
  have hseen : StatePath.parse ("story.seen." ++ seenKey "fire") =
      .ok ⟨"story.seen.actionFire", "story", ["seen", "actionFire"]⟩ := by decide +kernel
  exact (dispatch_takes_hold_iff (Tree.distinct_of_forall_mem (by decide)) hexec hres).mpr
    ⟨_, hcooldown, ⟨_, hseen⟩, fun _ => by decide⟩

def fireRecord (id : String) : String :=
  "\x7b\"id\": \"" ++ id ++ "\", \"label\": \"Fire\", \"show_when\": \x7b\x7d, \"cooldown\": 10\x7d"

def firePack : Pack :=
  Pack.ofFiles "pack" [("actions/fires.json",
    "[" ++ ", ".intercalate (["fire", "camp.fire", "light fire"].map fireRecord) ++ "]")]

theorem dotted_id_is_done_twice :
    Audit.ofPack firePack true = (⟨fireContent, []⟩, none) ∧
      fireStore.isExecutable "camp.fire" = .ok true ∧
      (fireStore.dispatch "camp.fire").1 = .ok (.performed fireDone) ∧
      Gate.cooldownRemaining "camp.fire" (fireStore.dispatch "camp.fire").2.state =
        .ok Binary64.zero ∧
      ((fireStore.dispatch "camp.fire").2.dispatch "camp.fire").1 = .ok (.performed fireDone) ∧
      fireStore.isExecutable "light fire" = .ok true ∧
      (fireStore.dispatch "light fire").1 =
        .error (.path (.badSegment "story.seen.actionLight fire" "actionLight fire")) := by
  decide +kernel

end Store

end SurvivalRules

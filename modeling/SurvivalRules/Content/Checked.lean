import SurvivalRules.Text.Code
import SurvivalRules.Value

/-!
# Checked records

A record is checked as a whole: every faulty field is reported, and the rules that concern several
fields are tried only when each field is in order.
-/
namespace SurvivalRules

/-- The faulty fields of a record and the texts of broken rules; the empty name is the record itself. -/
structure Invalid where
  fields : List String
  messages : List String
  deriving DecidableEq, Repr

inductive Checked (α : Type) where
  | ok (a : α)
  | invalid (faults : Invalid)
  deriving DecidableEq

namespace Invalid

def join (a b : Invalid) : Invalid := ⟨a.fields ++ b.fields, a.messages ++ b.messages⟩

/-- Faults inside a field count as faults of that field. -/
def under (name : String) (e : Invalid) : Invalid := ⟨[name], e.messages⟩

end Invalid

def sortedDistinct (names : List String) : List String :=
  (names.mergeSort Text.le).eraseDups

namespace Checked

/-- The value itself is of no use, whatever it holds. -/
def wrong {α : Type} : Checked α := .invalid ⟨[""], []⟩

def broken {α : Type} (message : String) : Checked α := .invalid ⟨[""], [message]⟩

def map {α β : Type} (f : α → β) : Checked α → Checked β
  | .ok a => .ok (f a)
  | .invalid e => .invalid e

/-- Both parts are checked, and the faults of both are kept. -/
def both {α β γ : Type} (f : α → β → γ) : Checked α → Checked β → Checked γ
  | .ok a, .ok b => .ok (f a b)
  | .ok _, .invalid e => .invalid e
  | .invalid e, .ok _ => .invalid e
  | .invalid e, .invalid e' => .invalid (e.join e')

instance : Functor Checked := ⟨map, fun a => map fun _ => a⟩

instance : Pure Checked := ⟨.ok⟩

instance : Seq Checked := ⟨fun f x => both (fun g a => g a) f (x ())⟩

def under {α : Type} (name : String) : Checked α → Checked α
  | .ok a => .ok a
  | .invalid e => .invalid (e.under name)

/-- A rule over the finished record; it gives the text of the fault or the record to go on with. -/
def andThen {α β : Type} (x : Checked α) (rule : α → Checked β) : Checked β :=
  match x with
  | .ok a => rule a
  | .invalid e => .invalid e

def toExcept {α : Type} : Checked α → Except Invalid α
  | .ok a => .ok a
  | .invalid e => .error e

/-- All items, with the faults of all of them. -/
def items {α : Type} (read : Value → Checked α) : List Value → Checked (List α)
  | [] => .ok []
  | v :: rest => both (· :: ·) (read v) (items read rest)

/-- All entries, with the faults of all keys and values. -/
def entries {κ α : Type} (readKey : String → Checked κ) (read : Value → Checked α) :
    List (String × Value) → Checked (List (κ × α))
  | [] => .ok []
  | (k, v) :: rest =>
    both (· :: ·) (both Prod.mk (readKey k) (read v)) (entries readKey read rest)

@[simp] theorem both_ok {α β γ : Type} (f : α → β → γ) (a : α) (b : β) :
    both f (.ok a) (.ok b) = .ok (f a b) := rfl

theorem both_eq_ok_iff {α β γ : Type} {f : α → β → γ} {x : Checked α} {y : Checked β} {c : γ} :
    both f x y = .ok c ↔ ∃ a b, x = .ok a ∧ y = .ok b ∧ f a b = c := by
  cases x <;> cases y <;> simp [both]

end Checked

end SurvivalRules

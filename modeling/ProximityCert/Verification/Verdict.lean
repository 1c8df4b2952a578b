import ProximityCert.Wire.Frame

/-! What verifying a peer comes to, and how several checks are merged into one verdict. -/

namespace ProximityCert

inductive Verdict | success | fail | unable | unknown
  deriving DecidableEq

namespace Verdict

def all : List Verdict := [success, fail, unable, unknown]

def name : Verdict → String
  | success => "Success" | fail => "Fail" | unable => "Unable" | unknown => "Unknown"

def ofName? (n : String) : Option Verdict := all.find? fun v => v.name = n

def status : Verdict → PairedKeyStatus
  | success => .success | fail => .fail | unable => .unable | unknown => .unknown

def ofStatus : PairedKeyStatus → Verdict
  | .success => success | .fail => fail | .unable => unable | .unknown => unknown

/-- One failure fails the whole; short of that, only success throughout is success. -/
def merge (verdicts : List Verdict) : Verdict :=
  if fail ∈ verdicts then fail else if ∀ v ∈ verdicts, v = success then success else unable

/-- The verdict that a number on the wire stands for; an absent or unknown number tells nothing. -/
def ofCode (code : Option Int32) : Verdict := ((code.bind PairedKeyStatus.ofCode?).map ofStatus).getD unknown

@[simp] theorem ofStatus_status (v : Verdict) : ofStatus v.status = v := by cases v <;> rfl

@[simp] theorem ofCode_status (v : Verdict) : ofCode (some v.status.code) = v := by cases v <;> rfl

theorem merge_eq_fail_iff {vs : List Verdict} : merge vs = fail ↔ fail ∈ vs := by
  unfold merge
  split
  · simp [*]
  · split <;> simp [*]

theorem merge_eq_success_iff {vs : List Verdict} : merge vs = success ↔ ∀ v ∈ vs, v = success := by
  unfold merge
  split
  · next h => simp only [reduceCtorEq, false_iff]; exact fun all => absurd (all _ h) (by decide)
  · split
    · next h => exact ⟨fun _ => h, fun _ => rfl⟩
    · next h => exact ⟨nofun, fun all => absurd all h⟩

end Verdict
end ProximityCert

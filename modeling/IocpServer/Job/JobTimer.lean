import Mathlib.Algebra.GroupWithZero.Nat
import Mathlib.Data.Multiset.Filter

namespace IocpServer.Job

/-- An item of `JobTimer`: a job and the tick from which on it is due. -/
structure TimerItem (J : Type) where
  executeTick : Nat
  job : J
deriving DecidableEq

/-- A `JobTimer`; its heap holds any items with the same tick in any order. -/
structure JobTimer (J : Type) where
  items : Multiset (TimerItem J)
  distributing : Bool

namespace JobTimer

variable {J : Type}

def init : JobTimer J := ⟨0,false⟩

/-- The jobs of all items. -/
def jobs (timer : JobTimer J) : Multiset J := timer.items.map TimerItem.job

/-- The item that `reserve` makes before it takes the lock. Its tick is a 64-bit sum. -/
def item (now tickAfter : Nat) (job : J) : TimerItem J := ⟨(now+tickAfter)%2^64,job⟩

/-- The locked part of `reserve`. -/
def push (timer : JobTimer J) (item : TimerItem J) : JobTimer J :=
  { timer with items := item::ₘtimer.items }

def reserve (timer : JobTimer J) (now tickAfter : Nat) (job : J) : JobTimer J :=
  timer.push (item now tickAfter job)

/-- The heap hands out all that is due, earliest first. -/
def Pops [DecidableEq J] (timer : JobTimer J) (now : Nat) (popped : List (TimerItem J)) : Prop :=
  (popped : Multiset (TimerItem J))=timer.items.filter (fun item => ¬now < item.executeTick) ∧
    popped.Pairwise fun a b => a.executeTick ≤ b.executeTick

instance [DecidableEq J] (timer : JobTimer J) (now : Nat) (popped : List (TimerItem J)) :
    Decidable (timer.Pops now popped) :=
  inferInstanceAs (Decidable (_ ∧ _))

/-- The locked loop of `distribute`. -/
def collect [DecidableEq J] (timer : JobTimer J) (now : Nat) (popped : List (TimerItem J)) :
    Option (JobTimer J) :=
  if timer.Pops now popped then
    some { timer with items := timer.items.filter fun item => now < item.executeTick }
  else none

def clear (timer : JobTimer J) : JobTimer J := { timer with items := 0 }

@[simp] theorem item_job (now tickAfter : Nat) (job : J) : (item now tickAfter job).job=job := rfl

@[simp] theorem push_items (timer : JobTimer J) (item : TimerItem J) :
    (timer.push item).items=item::ₘtimer.items := rfl

@[simp] theorem push_distributing (timer : JobTimer J) (item : TimerItem J) :
    (timer.push item).distributing=timer.distributing := rfl

@[simp] theorem jobs_init : (init : JobTimer J).jobs=0 := rfl

@[simp] theorem jobs_reserve (timer : JobTimer J) (now tickAfter : Nat) (job : J) :
    (timer.reserve now tickAfter job).jobs=job::ₘtimer.jobs := by
  simp [jobs,reserve]

@[simp] theorem jobs_clear (timer : JobTimer J) : timer.clear.jobs=0 := rfl

/-- Every job stays in the timer or is handed out. -/
theorem jobs_collect [DecidableEq J] {timer timer' : JobTimer J} {now : Nat}
    {popped : List (TimerItem J)} (h : timer.collect now popped=some timer') :
    timer'.jobs+popped.map TimerItem.job=timer.jobs := by
  unfold collect at h
  split at h <;> cases h
  rename_i hpops
  rw [jobs,jobs,← Multiset.map_coe,hpops.1,← Multiset.map_add]
  exact congrArg _ (Multiset.filter_add_not _ _)

end JobTimer

end IocpServer.Job

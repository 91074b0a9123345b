import Mathlib.Tactic.Abel
import IocpServer.Framework.Heap
import IocpServer.Framework.Pool
import IocpServer.Job.JobTimer

set_option linter.unusedSectionVars false

namespace IocpServer.Job.Timers

open Pool (gather gather_cons gather_add)

/-- A `JobData`: which allocation it is and the queue that its weak pointer names. -/
structure JobData (Q : Type) where
  number : Nat
  owner : Q
deriving DecidableEq

abbrev Item (Q : Type) := TimerItem (JobData Q)

/-- `TimerItem::operator<`: the later item is the lesser one. -/
def less {Q : Type} (a b : Item Q) : Prop := b.executeTick<a.executeTick

instance {Q : Type} : DecidableRel (less (Q := Q)) :=
  fun _ _ => inferInstanceAs (Decidable (_<_))

/-- A collection of `distribute`: its `now`, the heap when it took the lock and when it released it,
and what it took. -/
structure Round (Q : Type) where
  now : Nat
  before : Multiset (Item Q)
  collected : List (Item Q)
  after : Multiset (Item Q)

/-- A job that was pushed to a queue, by the `distribute` whose collection has this index. -/
structure Push (Q : Type) where
  item : Item Q
  queue : Q
  round : Nat
  now : Nat

/-- The timer with its lock, which queues are alive, and histories that no step reads: the items that
were reserved, the collections, the pushes, and the items given up because their owner was dead or
because the timer was cleared. -/
structure Core (Q : Type) where
  timer : JobTimer (JobData Q)
  locked : Bool
  alive : Q → Bool
  next : Nat
  reserved : Multiset (Item Q)
  rounds : List (Round Q)
  pushed : List (Push Q)
  expired : Multiset (Item Q)
  cleared : Multiset (Item Q)

/-- Where a thread stands in a method of the timer; `inPush` is inside `JobQueue::push`, which may
run jobs. -/
inductive Frame (Q : Type)
  | reserve (item : Item Q)
  | distribute (now : Nat)
  | lock (now : Nat)
  | collect (now : Nat) (before : Multiset (Item Q)) (items : List (Item Q))
  | pushItems (round now : Nat) (items : List (Item Q))
  | inPush
  | clear

/-- `reserve` with the clock it reads, `distribute` and `clear`. -/
inductive Call (Q : Type)
  | reserve (clock tickAfter : Nat) (owner : Q)
  | distribute (now : Nat)
  | clear

/-- The item that the heap has on top, if it has one, and the call that a job makes next. -/
structure Choice (Q : Type) where
  top : Option (Item Q)
  call : Option (Call Q)

inductive Entry (Q : Type)
  | call (call : Call Q)
  | die (queue : Q)

variable {Q : Type} [DecidableEq Q]

namespace Core

def init : Core Q :=
  { timer := JobTimer.init, locked := false, alive := fun _ => true, next := 0, reserved := 0,
    rounds := [], pushed := [], expired := 0, cleared := 0 }

def setItems (c : Core Q) (items : Multiset (Item Q)) : Core Q :=
  { c with timer := { c.timer with items := items } }

def setDistributing (c : Core Q) (distributing : Bool) : Core Q :=
  { c with timer := { c.timer with distributing := distributing } }

end Core

/-- A method begins; `reserve` reads the clock and allocates before it takes the lock. -/
def start (c : Core Q) : Call Q → Core Q×Frame Q
  | .reserve clock tickAfter owner =>
    ({ c with next := c.next+1 },.reserve (JobTimer.item clock tickAfter ⟨c.next,owner⟩))
  | .distribute now => (c,.distribute now)
  | .clear => (c,.clear)

/-- The loop of `distribute` ends and its lock is released. -/
def leave (c : Core Q) (now : Nat) (before : Multiset (Item Q)) (items : List (Item Q)) :
    Core Q×List (Frame Q) :=
  ({ c with locked := false, rounds := c.rounds++[⟨now,before,items,c.timer.items⟩] },
    [.pushItems c.rounds.length now items])

/-- One step of a thread; `none` means waiting for the lock, or a top that the heap does not have. -/
def exec (c : Core Q) (o : Choice Q) : Frame Q → Option (Core Q×List (Frame Q))
  | .reserve item =>
    if c.locked then none
    else some ({ c with timer := c.timer.push item, reserved := item::ₘc.reserved },[])
  | .distribute now =>
    if c.timer.distributing then some (c,[])
    else some (c.setDistributing true,[.lock now])
  | .lock now =>
    if c.locked then none
    else some ({ c with locked := true },[.collect now c.timer.items []])
  | .collect now before items =>
    match o.top with
    | none => if c.timer.items=0 then some (leave c now before items) else none
    | some x =>
      if Heap.IsTop less c.timer.items x then
        if now<x.executeTick then some (leave c now before items)
        else some (c.setItems (c.timer.items.erase x),[.collect now before (items++[x])])
      else none
  | .pushItems round now items =>
    match items with
    | [] => some (c.setDistributing false,[])
    | x::xs =>
      if c.alive x.job.owner then
        some ({ c with pushed := c.pushed++[⟨x,x.job.owner,round,now⟩] },
          [.inPush,.pushItems round now xs])
      else some ({ c with expired := x::ₘc.expired },[.pushItems round now xs])
  | .inPush =>
    match o.call with
    | none => some (c,[])
    | some call => some ((start c call).1,[(start c call).2,.inPush])
  | .clear =>
    if c.locked then none
    else some ({ c.setItems 0 with cleared := c.cleared+c.timer.items },[])

def enter (c : Core Q) : Entry Q → Option (Core Q×List (Frame Q))
  | .call call => some ((start c call).1,[(start c call).2])
  | .die queue => some ({ c with alive := Function.update c.alive queue false },[])

def object : Pool.Object (Core Q) (Frame Q) (Choice Q) (Entry Q) := ⟨exec,enter⟩

abbrev State (T Q : Type) := Pool.State T (Core Q) (Frame Q)

abbrev Action (T Q : Type) := Pool.Action T (Choice Q) (Entry Q)

def init {T : Type} : State T Q := Pool.State.init Core.init

def step {T : Type} [DecidableEq T] (s : State T Q) (a : Action T Q) : Option (State T Q) :=
  Pool.step object s a

/-- What the step from a frame can do. -/
inductive Move (c : Core Q) : Frame Q → Core Q → List (Frame Q) → Prop
  | reserve (item : Item Q) (hfree : c.locked=false) : Move c (.reserve item)
      { c with timer := c.timer.push item, reserved := item::ₘc.reserved } []
  | turnedAway (now : Nat) (hbusy : c.timer.distributing=true) : Move c (.distribute now) c []
  | pass (now : Nat) (hidle : c.timer.distributing=false) :
      Move c (.distribute now) (c.setDistributing true) [.lock now]
  | lock (now : Nat) (hfree : c.locked=false) :
      Move c (.lock now) { c with locked := true } [.collect now c.timer.items []]
  | pop (now : Nat) (before : Multiset (Item Q)) (items : List (Item Q)) (x : Item Q)
      (htop : Heap.IsTop less c.timer.items x) (hdue : ¬now<x.executeTick) :
      Move c (.collect now before items) (c.setItems (c.timer.items.erase x))
        [.collect now before (items++[x])]
  | leave (now : Nat) (before : Multiset (Item Q)) (items : List (Item Q))
      (hrest : ∀ y∈c.timer.items, now<y.executeTick) :
      Move c (.collect now before items) (leave c now before items).1 (leave c now before items).2
  | finish (round now : Nat) : Move c (.pushItems round now []) (c.setDistributing false) []
  | push (round now : Nat) (x : Item Q) (xs : List (Item Q)) :
      Move c (.pushItems round now (x::xs))
        { c with pushed := c.pushed++[⟨x,x.job.owner,round,now⟩] }
        [.inPush,.pushItems round now xs]
  | expire (round now : Nat) (x : Item Q) (xs : List (Item Q))
      (hdead : c.alive x.job.owner=false) :
      Move c (.pushItems round now (x::xs)) { c with expired := x::ₘc.expired }
        [.pushItems round now xs]
  | returned : Move c .inPush c []
  | call (call : Call Q) : Move c .inPush (start c call).1 [(start c call).2,.inPush]
  | clear (hfree : c.locked=false) :
      Move c .clear { c.setItems 0 with cleared := c.cleared+c.timer.items } []

theorem exec_move {c c' : Core Q} {o : Choice Q} {f : Frame Q} {fs : List (Frame Q)}
    (h : exec c o f=some (c',fs)) : Move c f c' fs := by
  cases f with
  | reserve item =>
    simp only [exec] at h
    split at h
    · cases h
    · rename_i hfree
      cases h
      exact .reserve item (by simpa using hfree)
  | distribute now =>
    simp only [exec] at h
    split at h
    · rename_i hbusy
      cases h
      exact .turnedAway now hbusy
    · rename_i hidle
      cases h
      exact .pass now (by simpa using hidle)
  | lock now =>
    simp only [exec] at h
    split at h
    · cases h
    · rename_i hfree
      cases h
      exact .lock now (by simpa using hfree)
  | collect now before items =>
    simp only [exec] at h
    split at h
    · split at h
      · rename_i hempty
        cases h
        exact .leave now before items fun y hy => by
          rw [hempty] at hy
          exact absurd hy (Multiset.notMem_zero y)
      · cases h
    · rename_i x _
      split at h
      · rename_i htop
        split at h
        · rename_i hlate
          cases h
          exact .leave now before items fun y hy =>
            Nat.lt_of_lt_of_le hlate (Nat.le_of_not_lt (htop.2 y hy))
        · rename_i hdue
          cases h
          exact .pop now before items x htop hdue
      · cases h
  | pushItems round now items =>
    cases items with
    | nil =>
      cases h
      exact .finish round now
    | cons x xs =>
      simp only [exec] at h
      split at h
      · cases h
        exact .push round now x xs
      · rename_i hdead
        cases h
        exact .expire round now x xs (by simpa using hdead)
  | inPush =>
    simp only [exec] at h
    split at h
    · cases h
      exact .returned
    · rename_i call _
      cases h
      exact .call call
  | clear =>
    simp only [exec] at h
    split at h
    · cases h
    · rename_i hfree
      cases h
      exact .clear (by simpa using hfree)

/-- The items that a call of `distribute` has taken and not yet pushed. -/
def Frame.held : Frame Q → Multiset (Item Q)
  | .collect _ _ items => items
  | .pushItems _ _ items => items
  | _ => 0

/-- The number of the item that a call of `reserve` has allocated and not yet stored. -/
def Frame.number : Frame Q → Multiset Nat
  | .reserve item => {item.job.number}
  | _ => 0

/-- The call of `distribute` has passed the guard. -/
def Frame.busy : Frame Q → Nat
  | .lock _ | .collect _ _ _ | .pushItems _ _ _ => 1
  | _ => 0

/-- The call holds the lock between two steps. -/
def Frame.locks : Frame Q → Nat
  | .collect _ _ _ => 1
  | _ => 0

@[simp] theorem held_start (c : Core Q) (call : Call Q) : (start c call).2.held=0 := by
  cases call <;> rfl

/-- Every reserved item is in the heap, in the hands of a `distribute`, pushed, or given up. -/
def Kept (c : Core Q) (m : Multiset (Frame Q)) : Prop :=
  c.reserved=c.timer.items+gather Frame.held m+(c.pushed.map Push.item : List (Item Q))+c.expired+c.cleared

theorem Kept.start {c : Core Q} {m : Multiset (Frame Q)} (h : Kept c m) (call : Call Q) :
    Kept (start c call).1 ((start c call).2::ₘm) := by
  unfold Kept
  rw [gather_cons,held_start,zero_add]
  cases call <;> exact h

theorem single_add (f : Frame Q) (m : Multiset (Frame Q)) :
    (([f] : List (Frame Q)) : Multiset (Frame Q))+m=f::ₘm := by
  rw [Multiset.coe_singleton,Multiset.singleton_add]

theorem pair_add (f g : Frame Q) (m : Multiset (Frame Q)) :
    (([f,g] : List (Frame Q)) : Multiset (Frame Q))+m=f::ₘg::ₘm := by
  simp [← Multiset.cons_coe]

theorem Kept.move {c c' : Core Q} {f : Frame Q} {fs : List (Frame Q)} {m : Multiset (Frame Q)}
    (h : Kept c (f::ₘm)) (hm : Move c f c' fs) : Kept c' (fs+m) := by
  have hkept := h
  unfold Kept at h ⊢
  rw [gather_cons] at h
  rw [gather_add]
  cases hm with
  | call call =>
    rw [← gather_add,pair_add]
    exact hkept.start call
  | reserve item hfree =>
    simp only [JobTimer.push_items,Frame.held,List.map_nil,List.sum_nil,zero_add] at h ⊢
    rw [h]
    simp only [← Multiset.singleton_add]
    abel
  | pop now before items x htop hdue =>
    have hx : {x}+c.timer.items.erase x=c.timer.items := by
      rw [Multiset.singleton_add,Multiset.cons_erase htop.1]
    simp only [Core.setItems,Frame.held,List.map_cons,List.map_nil,List.sum_singleton,
      ← Multiset.coe_add,Multiset.coe_singleton] at h ⊢
    rw [h,← hx,Multiset.singleton_add,Multiset.erase_cons_head,← Multiset.singleton_add]
    abel
  | push round now x xs =>
    simp only [Frame.held,List.map_cons,List.map_nil,List.sum_cons,List.sum_nil,List.map_append,
      ← Multiset.coe_add,← Multiset.cons_coe,← Multiset.singleton_add] at h ⊢
    rw [h]
    abel
  | expire round now x xs hdead =>
    simp only [Frame.held,List.map_cons,List.map_nil,List.sum_singleton,← Multiset.cons_coe,
      ← Multiset.singleton_add] at h ⊢
    rw [h]
    abel
  | clear hfree =>
    simp only [Core.setItems,Frame.held,List.map_nil,List.sum_nil,zero_add] at h ⊢
    rw [h]
    abel
  | turnedAway | pass | lock | leave | finish | returned =>
    simpa [Frame.held,Core.setDistributing,leave] using h

/-- The guard admits one `distribute` at a time, and the lock is held by the one that collects. -/
structure Guarded (c : Core Q) (m : Multiset (Frame Q)) : Prop where
  busy : gather Frame.busy m=c.timer.distributing.toNat
  locks : gather Frame.locks m=c.locked.toNat

theorem Guarded.start {c : Core Q} {m : Multiset (Frame Q)} (h : Guarded c m) (call : Call Q) :
    Guarded (start c call).1 ((start c call).2::ₘm) := by
  cases call <;> exact ⟨by simpa [Timers.start,Frame.busy] using h.busy,
    by simpa [Timers.start,Frame.locks] using h.locks⟩

theorem Guarded.move {c c' : Core Q} {f : Frame Q} {fs : List (Frame Q)} {m : Multiset (Frame Q)}
    (h : Guarded c (f::ₘm)) (hm : Move c f c' fs) : Guarded c' (fs+m) := by
  obtain ⟨hbusy,hlocks⟩ := h
  rw [gather_cons] at hbusy hlocks
  cases hm with
  | call call =>
    rw [pair_add]
    exact Guarded.start ⟨(gather_cons _ _ _).trans hbusy,(gather_cons _ _ _).trans hlocks⟩ call
  | pass now hidle =>
    rw [hidle] at hbusy
    exact ⟨by simpa [Frame.busy,Core.setDistributing] using hbusy,
      by simpa [Frame.locks,Core.setDistributing] using hlocks⟩
  | lock now hfree =>
    rw [hfree] at hlocks
    exact ⟨by simpa [Frame.busy] using hbusy,by simpa [Frame.locks] using hlocks⟩
  | leave now before items hrest =>
    have hone : gather Frame.locks m=0 := by
      have := c.locked.toNat_le
      simp only [Frame.locks] at hlocks
      omega
    exact ⟨by simpa [Frame.busy,leave] using hbusy,by simpa [Frame.locks,leave] using hone⟩
  | finish round now =>
    have hone : gather Frame.busy m=0 := by
      have := c.timer.distributing.toNat_le
      simp only [Frame.busy] at hbusy
      omega
    exact ⟨by simpa [Core.setDistributing] using hone,
      by simpa [Frame.locks,Core.setDistributing] using hlocks⟩
  | reserve | turnedAway | pop | push | expire | returned | clear =>
    exact ⟨by simpa [Frame.busy,Core.setItems] using hbusy,
      by simpa [Frame.locks,Core.setItems] using hlocks⟩

theorem Guarded.not_collecting {c : Core Q} {m : Multiset (Frame Q)} (h : Guarded c m)
    (hfree : c.locked=false) (now : Nat) (before : Multiset (Item Q)) (items : List (Item Q)) :
    Frame.collect now before items∉m := by
  intro hmem
  obtain ⟨m',rfl⟩ := Multiset.exists_cons_of_mem hmem
  have hlocks := h.locks
  rw [gather_cons,hfree] at hlocks
  simp only [Frame.locks,Bool.toNat_false] at hlocks
  omega

/-- Beside a `distribute` that collects or pushes there is no other. -/
theorem Guarded.alone {c : Core Q} {f : Frame Q} {m : Multiset (Frame Q)} (h : Guarded c (f::ₘm))
    (hf : f.busy=1) {g : Frame Q} (hg : g∈m) : g.busy=0 := by
  obtain ⟨m',rfl⟩ := Multiset.exists_cons_of_mem hg
  have hbusy := h.busy
  have := c.timer.distributing.toNat_le
  rw [gather_cons,gather_cons] at hbusy
  omega

/-- Every allocated item has its own number. -/
structure Numbered (c : Core Q) (m : Multiset (Frame Q)) : Prop where
  lt : ∀ n∈c.reserved.map (fun x => x.job.number)+gather Frame.number m, n<c.next
  nodup : (c.reserved.map (fun x => x.job.number)+gather Frame.number m).Nodup

theorem Numbered.start {c : Core Q} {m : Multiset (Frame Q)} (h : Numbered c m) (call : Call Q) :
    Numbered (start c call).1 ((start c call).2::ₘm) := by
  cases call with
  | reserve clock tickAfter owner =>
    have hnew : c.reserved.map (fun x => x.job.number)+
        gather Frame.number ((Timers.start c (.reserve clock tickAfter owner)).2::ₘm)=
        c.next::ₘ(c.reserved.map (fun x => x.job.number)+gather Frame.number m) := by
      rw [gather_cons]
      simp only [Timers.start,Frame.number,JobTimer.item_job,← Multiset.singleton_add]
      abel
    refine ⟨?_,?_⟩
    · intro n hn
      change n∈c.reserved.map _+_ at hn
      rw [hnew] at hn
      change n<c.next+1
      rcases Multiset.mem_cons.mp hn with rfl|hn
      · exact Nat.lt_succ_self _
      · exact Nat.lt_succ_of_lt (h.lt n hn)
    · change (c.reserved.map _+_).Nodup
      rw [hnew]
      exact Multiset.nodup_cons.mpr ⟨fun hn => Nat.lt_irrefl _ (h.lt _ hn),h.nodup⟩
  | distribute | clear => exact ⟨by simpa [Timers.start,Frame.number] using h.lt,
      by simpa [Timers.start,Frame.number] using h.nodup⟩

theorem Numbered.move {c c' : Core Q} {f : Frame Q} {fs : List (Frame Q)} {m : Multiset (Frame Q)}
    (h : Numbered c (f::ₘm)) (hm : Move c f c' fs) : Numbered c' (fs+m) := by
  cases hm with
  | call call =>
    rw [pair_add]
    exact h.start call
  | reserve item hfree =>
    have hsame : (item::ₘc.reserved).map (fun x => x.job.number)+gather Frame.number m=
        c.reserved.map (fun x => x.job.number)+gather Frame.number (.reserve item::ₘm) := by
      rw [gather_cons,Multiset.map_cons]
      simp only [Frame.number,← Multiset.singleton_add]
      abel
    refine ⟨?_,?_⟩
    · rw [gather_add,List.map_nil,List.sum_nil,zero_add]
      exact hsame ▸ h.lt
    · rw [gather_add,List.map_nil,List.sum_nil,zero_add]
      exact hsame ▸ h.nodup
  | turnedAway | pass | lock | pop | leave | finish | push | expire | returned | clear =>
    exact ⟨by simpa [Frame.number,Core.setItems,Core.setDistributing,leave] using h.lt,
      by simpa [Frame.number,Core.setItems,Core.setDistributing,leave] using h.nodup⟩

/-- The items pushed by the `distribute` whose collection has this index, in their order. -/
def pushesOf (c : Core Q) (round : Nat) : List (Item Q) :=
  (c.pushed.filter fun p => p.round=round).map Push.item

/-- The collection took exactly what was due, earliest first. -/
structure Round.Exact (r : Round Q) : Prop where
  collected : (r.collected : Multiset (Item Q))=r.before.filter fun x => ¬r.now<x.executeTick
  after : r.after=r.before.filter fun x => r.now<x.executeTick
  sorted : r.collected.Pairwise fun x y => x.executeTick ≤ y.executeTick

/-- A `distribute` that collects has popped the heap since it took the lock, one that pushes goes on
with what it collected, and every push is recorded with its collection. -/
structure Orderly (c : Core Q) (m : Multiset (Frame Q)) : Prop where
  draining : ∀ now before items, Frame.collect now before items∈m →
    Heap.Draining less (fun x => ¬now<x.executeTick) before items c.timer.items
  pushing : ∀ round now items, Frame.pushItems round now items∈m →
    ∃ r, c.rounds[round]?=some r ∧ r.now=now ∧ (pushesOf c round++items).Sublist r.collected
  rounds : ∀ r∈c.rounds, r.Exact
  order : ∀ (i : Nat) r, c.rounds[i]?=some r → (pushesOf c i).Sublist r.collected
  pushed : ∀ p∈c.pushed, p.queue=p.item.job.owner ∧
    ∃ r, c.rounds[p.round]?=some r ∧ r.now=p.now

/-- A step that leaves the collections and the pushes alone, and the heap too where somebody
collects. -/
theorem Orderly.keep {c c' : Core Q} {m m' : Multiset (Frame Q)} (h : Orderly c m)
    (hrounds : c'.rounds=c.rounds) (hpushed : c'.pushed=c.pushed)
    (hcollect : ∀ now before items, Frame.collect now before items∈m' →
      Frame.collect now before items∈m ∧ c'.timer.items=c.timer.items)
    (hpush : ∀ round now items, Frame.pushItems round now items∈m' →
      Frame.pushItems round now items∈m) : Orderly c' m' := by
  have hsame : ∀ i, pushesOf c' i=pushesOf c i := fun i => by rw [pushesOf,pushesOf,hpushed]
  refine ⟨?_,?_,?_,?_,?_⟩
  · intro now before items hmem
    obtain ⟨hold,hitems⟩ := hcollect now before items hmem
    rw [hitems]
    exact h.draining now before items hold
  · intro round now items hmem
    rw [hsame,hrounds]
    exact h.pushing round now items (hpush round now items hmem)
  · rw [hrounds]
    exact h.rounds
  · intro i r hr
    rw [hrounds] at hr
    rw [hsame]
    exact h.order i r hr
  · rw [hpushed,hrounds]
    exact h.pushed

theorem Orderly.start {c : Core Q} {m : Multiset (Frame Q)} (h : Orderly c m) (call : Call Q) :
    Orderly (start c call).1 ((start c call).2::ₘm) := by
  cases call <;> exact h.keep rfl rfl
    (fun now before items hmem => ⟨(Multiset.mem_cons.mp hmem).resolve_left nofun,rfl⟩)
    (fun round now items hmem => (Multiset.mem_cons.mp hmem).resolve_left nofun)

theorem Orderly.pop {c : Core Q} {now : Nat} {before : Multiset (Item Q)} {items : List (Item Q)}
    {m : Multiset (Frame Q)} {x : Item Q} (h : Orderly c (.collect now before items::ₘm))
    (hg : Guarded c (.collect now before items::ₘm)) (htop : Heap.IsTop less c.timer.items x)
    (hdue : ¬now<x.executeTick) :
    Orderly (c.setItems (c.timer.items.erase x)) (.collect now before (items++[x])::ₘm) := by
  refine ⟨?_,?_,h.rounds,h.order,h.pushed⟩
  · intro now' before' items' hmem
    rcases Multiset.mem_cons.mp hmem with heq|hmem
    · cases heq
      exact (h.draining _ _ _ (Multiset.mem_cons_self _ _)).pop htop hdue
    · cases hg.alone rfl hmem
  · intro round now' items' hmem
    have hold := (Multiset.mem_cons.mp hmem).resolve_left nofun
    exact h.pushing round now' items' (Multiset.mem_cons_of_mem hold)

/-- When the loop stops, it has taken what was due, and the pushes begin. -/
theorem Orderly.leave {c : Core Q} {now : Nat} {before : Multiset (Item Q)}
    {items : List (Item Q)} {m : Multiset (Frame Q)}
    (h : Orderly c (.collect now before items::ₘm))
    (hg : Guarded c (.collect now before items::ₘm))
    (hrest : ∀ y∈c.timer.items, now<y.executeTick) :
    Orderly (leave c now before items).1 (.pushItems c.rounds.length now items::ₘm) := by
  have hdrain := h.draining _ _ _ (Multiset.mem_cons_self _ _)
  have hfinish := hdrain.finish fun y hy hdue => hdue (hrest y hy)
  have hexact : Round.Exact ⟨now,before,items,c.timer.items⟩ := by
    refine ⟨hfinish.1,?_,?_⟩
    · have hafter := hfinish.2
      simpa only [not_not] using hafter
    · exact hdrain.sorted.imp fun hxy => Nat.le_of_not_lt hxy
  have hnew : pushesOf c c.rounds.length=[] := by
    have hnone : c.pushed.filter (fun p => p.round=c.rounds.length)=[] := by
      rw [List.filter_eq_nil_iff]
      intro p hp heq
      obtain ⟨-,r,hr,-⟩ := h.pushed p hp
      have hlt := (List.getElem?_eq_some_iff.mp hr).1
      have hround : p.round=c.rounds.length := of_decide_eq_true heq
      omega
    rw [pushesOf,hnone,List.map_nil]
  have hround : ∀ {i : Nat} {r : Round Q}, c.rounds[i]?=some r →
      (c.rounds++[⟨now,before,items,c.timer.items⟩])[i]?=some r := by
    intro i r hr
    rw [List.getElem?_append_left (List.getElem?_eq_some_iff.mp hr).1]
    exact hr
  have hlast : (c.rounds++[(⟨now,before,items,c.timer.items⟩ : Round Q)])[c.rounds.length]?=
      some ⟨now,before,items,c.timer.items⟩ := List.getElem?_concat_length
  refine ⟨?_,?_,?_,?_,?_⟩
  · intro now' before' items' hmem
    cases hg.alone rfl ((Multiset.mem_cons.mp hmem).resolve_left nofun)
  · intro round now' items' hmem
    rcases Multiset.mem_cons.mp hmem with heq|hmem
    · cases heq
      refine ⟨_,hlast,rfl,?_⟩
      change (pushesOf c c.rounds.length++items).Sublist items
      rw [hnew,List.nil_append]
    · cases hg.alone rfl hmem
  · intro r hr
    rcases List.mem_append.mp hr with hr|hr
    · exact h.rounds r hr
    · exact List.mem_singleton.mp hr ▸ hexact
  · intro i r hr
    change (pushesOf c i).Sublist r.collected
    by_cases hi : i<c.rounds.length
    · change (c.rounds++[_])[i]?=some r at hr
      rw [List.getElem?_append_left hi] at hr
      exact h.order i r hr
    · have hlt := (List.getElem?_eq_some_iff.mp hr).1
      have heq : i=c.rounds.length := by
        change i<(c.rounds++[_]).length at hlt
        rw [List.length_append,List.length_singleton] at hlt
        omega
      rw [heq,hnew]
      exact List.nil_sublist _
  · intro p hp
    obtain ⟨hqueue,r,hr,hnow⟩ := h.pushed p hp
    exact ⟨hqueue,r,hround hr,hnow⟩

theorem Orderly.push {c : Core Q} {round now : Nat} {x : Item Q} {xs : List (Item Q)}
    {m : Multiset (Frame Q)} (h : Orderly c (.pushItems round now (x::xs)::ₘm))
    (hg : Guarded c (.pushItems round now (x::xs)::ₘm)) :
    Orderly { c with pushed := c.pushed++[⟨x,x.job.owner,round,now⟩] }
      (.inPush::ₘ.pushItems round now xs::ₘm) := by
  obtain ⟨r,hr,hnow,hsub⟩ := h.pushing _ _ _ (Multiset.mem_cons_self _ _)
  have hsame : ∀ i, i≠round →
      pushesOf { c with pushed := c.pushed++[⟨x,x.job.owner,round,now⟩] } i=pushesOf c i := by
    intro i hi
    simp [pushesOf,List.filter_append,hi.symm]
  have hnew : pushesOf { c with pushed := c.pushed++[⟨x,x.job.owner,round,now⟩] } round=
      pushesOf c round++[x] := by
    simp [pushesOf,List.filter_append]
  refine ⟨?_,?_,h.rounds,?_,?_⟩
  · intro now' before' items' hmem
    have hold := (Multiset.mem_cons.mp hmem).resolve_left nofun
    cases hg.alone rfl ((Multiset.mem_cons.mp hold).resolve_left nofun)
  · intro round' now' items' hmem
    rcases Multiset.mem_cons.mp ((Multiset.mem_cons.mp hmem).resolve_left nofun) with heq|hold
    · cases heq
      refine ⟨r,hr,hnow,?_⟩
      rw [hnew,List.append_assoc]
      exact hsub
    · cases hg.alone rfl hold
  · intro i r' hr'
    by_cases hi : i=round
    · subst hi
      cases hr.symm.trans hr'
      rw [hnew]
      refine List.Sublist.trans ?_ hsub
      exact (List.append_sublist_append_left _).mpr (List.singleton_sublist.mpr List.mem_cons_self)
    · rw [hsame i hi]
      exact h.order i r' hr'
  · intro p hp
    rcases List.mem_append.mp hp with hp|hp
    · exact h.pushed p hp
    · cases List.mem_singleton.mp hp
      exact ⟨rfl,r,hr,hnow⟩

theorem Orderly.expire {c : Core Q} {round now : Nat} {x : Item Q} {xs : List (Item Q)}
    {m : Multiset (Frame Q)} (h : Orderly c (.pushItems round now (x::xs)::ₘm)) :
    Orderly { c with expired := x::ₘc.expired } (.pushItems round now xs::ₘm) := by
  obtain ⟨r,hr,hnow,hsub⟩ := h.pushing _ _ _ (Multiset.mem_cons_self _ _)
  refine ⟨?_,?_,h.rounds,h.order,h.pushed⟩
  · intro now' before' items' hmem
    have hold := (Multiset.mem_cons.mp hmem).resolve_left nofun
    exact h.draining now' before' items' (Multiset.mem_cons_of_mem hold)
  · intro round' now' items' hmem
    rcases Multiset.mem_cons.mp hmem with heq|hold
    · cases heq
      refine ⟨r,hr,hnow,List.Sublist.trans ?_ hsub⟩
      exact (List.append_sublist_append_left _).mpr (List.sublist_cons_self x xs)
    · exact h.pushing round' now' items' (Multiset.mem_cons_of_mem hold)

theorem Orderly.move {c c' : Core Q} {f : Frame Q} {fs : List (Frame Q)} {m : Multiset (Frame Q)}
    (h : Orderly c (f::ₘm)) (hg : Guarded c (f::ₘm)) (hm : Move c f c' fs) : Orderly c' (fs+m) := by
  have hdrop : ∀ g, g∈m → g∈f::ₘm := fun _ => Multiset.mem_cons_of_mem
  cases hm with
  | call call =>
    rw [pair_add]
    exact h.start call
  | pop now before items x htop hdue =>
    rw [single_add]
    exact h.pop hg htop hdue
  | leave now before items hrest =>
    rw [show (Timers.leave c now before items).2=[.pushItems c.rounds.length now items] from rfl,
      single_add]
    exact h.leave hg hrest
  | push round now x xs =>
    rw [pair_add]
    exact h.push hg
  | expire round now x xs hdead =>
    rw [single_add]
    exact h.expire
  | lock now hfree =>
    rw [single_add]
    refine ⟨?_,?_,h.rounds,h.order,h.pushed⟩
    · intro now' before' items' hmem
      rcases Multiset.mem_cons.mp hmem with heq|hmem
      · cases heq
        exact Heap.Draining.start _
      · exact absurd (hdrop _ hmem) (hg.not_collecting hfree _ _ _)
    · intro round now' items' hmem
      exact h.pushing round now' items' (hdrop _ ((Multiset.mem_cons.mp hmem).resolve_left nofun))
  | pass now hidle =>
    rw [single_add]
    exact h.keep rfl rfl
      (fun now before items hmem => ⟨hdrop _ ((Multiset.mem_cons.mp hmem).resolve_left nofun),rfl⟩)
      (fun round now items hmem => hdrop _ ((Multiset.mem_cons.mp hmem).resolve_left nofun))
  | reserve item hfree =>
    rw [Multiset.coe_nil,zero_add]
    exact h.keep rfl rfl
      (fun now before items hmem => absurd (hdrop _ hmem) (hg.not_collecting hfree _ _ _))
      (fun round now items hmem => hdrop _ hmem)
  | clear hfree =>
    rw [Multiset.coe_nil,zero_add]
    exact h.keep rfl rfl
      (fun now before items hmem => absurd (hdrop _ hmem) (hg.not_collecting hfree _ _ _))
      (fun round now items hmem => hdrop _ hmem)
  | turnedAway | finish | returned =>
    rw [Multiset.coe_nil,zero_add]
    exact h.keep rfl rfl (fun now before items hmem => ⟨hdrop _ hmem,rfl⟩)
      (fun round now items hmem => hdrop _ hmem)

/-- The items that were given up have a dead owner. -/
def Expired (c : Core Q) : Prop := ∀ x∈c.expired, c.alive x.job.owner=false

theorem Expired.start {c : Core Q} (h : Expired c) (call : Call Q) : Expired (start c call).1 := by
  cases call <;> exact h

theorem Expired.move {c c' : Core Q} {f : Frame Q} {fs : List (Frame Q)} (h : Expired c)
    (hm : Move c f c' fs) : Expired c' := by
  cases hm with
  | call call => exact h.start call
  | expire round now x xs hdead =>
    intro y hy
    rcases Multiset.mem_cons.mp hy with rfl|hy
    · exact hdead
    · exact h y hy
  | reserve | turnedAway | pass | lock | pop | leave | finish | push | returned | clear => exact h

structure Inv (c : Core Q) (m : Multiset (Frame Q)) : Prop where
  kept : Kept c m
  guarded : Guarded c m
  numbered : Numbered c m
  orderly : Orderly c m
  expired : Expired c

theorem inv_init : Inv (Core.init : Core Q) 0 where
  kept := rfl
  guarded := ⟨rfl,rfl⟩
  numbered := ⟨fun n hn => absurd hn (Multiset.notMem_zero n),Multiset.nodup_zero⟩
  orderly := by
    refine ⟨?_,?_,nofun,nofun,nofun⟩
    · intro now before items hmem
      exact absurd hmem (Multiset.notMem_zero _)
    · intro round now items hmem
      exact absurd hmem (Multiset.notMem_zero _)
  expired := fun x hx => absurd hx (Multiset.notMem_zero x)

theorem Inv.move {c c' : Core Q} {f : Frame Q} {fs : List (Frame Q)} {m : Multiset (Frame Q)}
    (h : Inv c (f::ₘm)) (hm : Move c f c' fs) : Inv c' (fs+m) :=
  ⟨h.kept.move hm,h.guarded.move hm,h.numbered.move hm,h.orderly.move h.guarded hm,
    h.expired.move hm⟩

theorem Inv.enter {c c' : Core Q} {e : Entry Q} {fs : List (Frame Q)} {m : Multiset (Frame Q)}
    (h : Inv c m) (he : enter c e=some (c',fs)) : Inv c' (fs+m) := by
  cases e with
  | call call =>
    cases he
    rw [single_add]
    exact ⟨h.kept.start call,h.guarded.start call,h.numbered.start call,h.orderly.start call,
      h.expired.start call⟩
  | die queue =>
    cases he
    rw [Multiset.coe_nil,zero_add]
    refine ⟨h.kept,⟨h.guarded.busy,h.guarded.locks⟩,⟨h.numbered.lt,h.numbered.nodup⟩,
      h.orderly.keep rfl rfl (fun _ _ _ hmem => ⟨hmem,rfl⟩) (fun _ _ _ hmem => hmem),?_⟩
    intro x hx
    by_cases hq : x.job.owner=queue
    · subst hq
      exact Function.update_self _ _ _
    · exact (Function.update_of_ne hq _ _).trans (h.expired x hx)

section Run

variable {T : Type} [Fintype T] [DecidableEq T]

theorem reaches_inv {s : State T Q} (h : Reaches step Any init s) :
    Inv s.core (Pool.pending s.calls) :=
  Pool.reaches_invariant h inv_init (fun _ _ _ _ _ _ hi hx => hi.move (exec_move hx))
    (fun _ _ _ _ _ hi he => hi.enter he)

/-- Whatever the threads do: a job is pushed at most once, to its owner and by a `distribute` that is
not too early; a `distribute` that has collected leaves exactly the items that are not due, and pushes
in the order of the ticks; and an item that was reserved is in the heap, on its way, pushed, or given
up with its owner or by `clear`. -/
theorem timers_fire_once {s : State T Q} (h : Reaches step Any init s) :
    (s.core.pushed.map fun p => p.item.job.number).Nodup ∧
    (∀ p∈s.core.pushed, p.item∈s.core.reserved ∧ p.queue=p.item.job.owner ∧
      p.item.executeTick ≤ p.now ∧
      ∃ r, s.core.rounds[p.round]?=some r ∧ r.now=p.now ∧ p.item∈r.collected) ∧
    (∀ r∈s.core.rounds, (∀ x∈r.after, r.now<x.executeTick) ∧
      (∀ x∈r.before, r.now<x.executeTick → x∈r.after) ∧
      r.before=r.after+(r.collected : Multiset (Item Q))) ∧
    (∀ round, (pushesOf s.core round).Pairwise fun x y => x.executeTick ≤ y.executeTick) ∧
    s.core.reserved=s.core.timer.items+gather Frame.held (Pool.pending s.calls)+
      (s.core.pushed.map Push.item : List (Item Q))+s.core.expired+s.core.cleared ∧
    (∀ x∈s.core.expired, s.core.alive x.job.owner=false) := by
  have hi := reaches_inv h
  have hround : ∀ p∈s.core.pushed, ∃ r, s.core.rounds[p.round]?=some r ∧ r.now=p.now ∧
      p.item∈r.collected := by
    intro p hp
    obtain ⟨-,r,hr,hnow⟩ := hi.orderly.pushed p hp
    refine ⟨r,hr,hnow,(hi.orderly.order p.round r hr).subset ?_⟩
    exact List.mem_map_of_mem (List.mem_filter.mpr ⟨hp,decide_eq_true rfl⟩)
  have hle : ((s.core.pushed.map Push.item : List (Item Q)) : Multiset (Item Q)) ≤
      s.core.reserved := by
    rw [hi.kept]
    exact (Multiset.le_add_left _ _).trans
      ((Multiset.le_add_right _ _).trans (Multiset.le_add_right _ _))
  refine ⟨?_,?_,?_,?_,hi.kept,hi.expired⟩
  · have hall := Multiset.nodup_of_le (Multiset.le_add_right _ _) hi.numbered.nodup
    have hnumbers := Multiset.nodup_of_le (Multiset.map_le_map (f := fun x => x.job.number) hle) hall
    rw [Multiset.map_coe,List.map_map,Multiset.coe_nodup] at hnumbers
    exact hnumbers
  · intro p hp
    obtain ⟨r,hr,hnow,hmem⟩ := hround p hp
    have hexact := hi.orderly.rounds r (List.mem_of_getElem? hr)
    have hdue : p.item∈r.before.filter fun x => ¬r.now<x.executeTick := by
      rw [← hexact.collected]
      exact hmem
    have htick := (Multiset.mem_filter.mp hdue).2
    refine ⟨Multiset.mem_of_le hle (List.mem_map_of_mem hp),(hi.orderly.pushed p hp).1,?_,
      r,hr,hnow,hmem⟩
    omega
  · intro r hr
    have hexact := hi.orderly.rounds r hr
    refine ⟨?_,?_,?_⟩
    · intro x hx
      rw [hexact.after] at hx
      exact (Multiset.mem_filter.mp hx).2
    · intro x hx hlate
      rw [hexact.after]
      exact Multiset.mem_filter.mpr ⟨hx,hlate⟩
    · rw [hexact.after,hexact.collected,Multiset.filter_add_not]
  · intro round
    by_cases hlt : round<s.core.rounds.length
    · have hr := List.getElem?_eq_getElem hlt
      exact (hi.orderly.rounds _ (List.mem_of_getElem? hr)).sorted.sublist
        (hi.orderly.order round _ hr)
    · have hnone : pushesOf s.core round=[] := by
        rw [pushesOf,List.map_eq_nil_iff,List.filter_eq_nil_iff]
        intro p hp heq
        obtain ⟨r,hr,-⟩ := hround p hp
        have hin := (List.getElem?_eq_some_iff.mp hr).1
        have hsame : p.round=round := of_decide_eq_true heq
        omega
      rw [hnone]
      exact List.Pairwise.nil

end Run

/-- Two jobs are reserved for the ticks 15 and 10; a `distribute` at 12 pushes the second one. -/
def lateAndDue : List (Action (Fin 1) Unit) :=
  [.enter 0 (.call (.reserve 10 5 ())),.run 0 ⟨none,none⟩,.enter 0 (.call (.reserve 10 0 ())),
    .run 0 ⟨none,none⟩,.enter 0 (.call (.distribute 12)),.run 0 ⟨none,none⟩,.run 0 ⟨none,none⟩,
    .run 0 ⟨some ⟨10,⟨1,()⟩⟩,none⟩,.run 0 ⟨some ⟨15,⟨0,()⟩⟩,none⟩,.run 0 ⟨none,none⟩]

theorem timers_fire_once_due : ∃ s : State (Fin 1) Unit, Reaches step Any init s ∧
    s.core.pushed.map (fun p => p.item)=[⟨10,⟨1,()⟩⟩] ∧ s.core.timer.items={⟨15,⟨0,()⟩⟩} ∧
    (s.core.pushed.map fun p => p.item.job.number).Nodup := by
  have hrun : (runActions step init lateAndDue).map (fun s =>
      (s.core.pushed.map (fun p => p.item),s.core.timer.items))=
      some ([⟨10,⟨1,()⟩⟩],{⟨15,⟨0,()⟩⟩}) := by decide +kernel
  obtain ⟨s,hs,hfields⟩ := Option.map_eq_some_iff.mp hrun
  simp only [Prod.mk.injEq] at hfields
  have hreach : Reaches step Any init s := Reaches.of_runActions (fun _ _ => trivial) _ hs
  exact ⟨s,hreach,hfields.1,hfields.2,(timers_fire_once hreach).1⟩

end IocpServer.Job.Timers

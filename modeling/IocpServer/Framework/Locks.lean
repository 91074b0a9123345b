import Mathlib.Logic.Function.Basic
import IocpServer.Framework.Machine

namespace IocpServer.Locks

variable {T L I : Type}

/-- What a program does to locks. Branches on data are choices, `choose` goes on with one of a family
of objects, `locked` is the scope of a lock guard. `await` is a wait on a condition variable with its
lock: it takes the lock and, as long as the condition does not hold, gives it back and sleeps. `sleep`
waits for something else, such as the end of another thread. -/
inductive Code (L I : Type) where
  | skip
  | seq (first second : Code L I)
  | choice (one other : Code L I)
  | choose (each : I → Code L I)
  | loop (body : Code L I)
  | locked (l : L) (body : Code L I)
  | await (l : L)
  | sleep

namespace Code

/-- A branch that may be skipped. -/
def opt (c : Code L I) : Code L I := .choice .skip c

/-- A sequence of statements. -/
def block : List (Code L I) → Code L I
  | [] => .skip
  | c::cs => .seq c (block cs)

/-- One of several branches. -/
def oneOf : List (Code L I) → Code L I
  | [] => .skip
  | c::cs => .choice c (oneOf cs)

end Code

/-- What a thread has to do: a statement, the end of a lock guard, or a statement to go on with when
it wakes up. -/
inductive Item (L I : Type) where
  | run (c : Code L I)
  | unlock (l : L)
  | asleep (c : Code L I)

/-- Who owns each lock, and what each thread still has to do. -/
structure State (T L I : Type) where
  owner : L → Option T
  todo : T → List (Item L I)

/-- The next step of a thread; `first` and `item` decide its branches. -/
structure Action (T I : Type) where
  thread : T
  first : Bool
  item : I

def State.init (code : T → Code L I) : State T L I := ⟨fun _ => none,fun t => [.run (code t)]⟩

section Step

variable [DecidableEq T] [DecidableEq L]

def State.set (s : State T L I) (t : T) (k : List (Item L I)) : State T L I :=
  { s with todo := Function.update s.todo t k }

omit [DecidableEq L] in
theorem State.set_todo_self (s : State T L I) (t : T) (k : List (Item L I)) :
    (s.set t k).todo t=k := by
  simp [State.set]

/-- The thread takes a free lock and goes on with `k`. -/
def State.take (s : State T L I) (t : T) (l : L) (k : List (Item L I)) : Option (State T L I) :=
  match s.owner l with
  | none => some ({ s with owner := Function.update s.owner l (some t) }.set t k)
  | some _ => none

def State.release (s : State T L I) (l : L) : State T L I :=
  { s with owner := Function.update s.owner l none }

def step (s : State T L I) (a : Action T I) : Option (State T L I) :=
  match s.todo a.thread with
  | [] => none
  | .run .skip::k => some (s.set a.thread k)
  | .run (.seq c d)::k => some (s.set a.thread (.run c::.run d::k))
  | .run (.choice c d)::k => some (s.set a.thread (.run (if a.first then c else d)::k))
  | .run (.choose c)::k => some (s.set a.thread (.run (c a.item)::k))
  | .run (.loop c)::k =>
    some (s.set a.thread (if a.first then .run c::.run (.loop c)::k else k))
  | .run (.locked l c)::k => s.take a.thread l (.run c::.unlock l::k)
  | .run (.await l)::k =>
    s.take a.thread l (if a.first then .unlock l::k else .unlock l::.asleep (.await l)::k)
  | .run .sleep::k => some (s.set a.thread (.asleep .skip::k))
  | .unlock l::k => some ((s.release l).set a.thread k)
  | .asleep c::k => some (s.set a.thread (.run c::k))

end Step

/-- The locks a thread holds. -/
def held : List (Item L I) → List L
  | [] => []
  | .unlock l::k => l::held k
  | _::k => held k

/-- The lock that the next statement needs. -/
def wants : List (Item L I) → Option L
  | .run (.locked l _)::_ | .run (.await l)::_ => some l
  | _ => none

def Sleeps : List (Item L I) → Prop
  | .asleep _::_ => True
  | _ => False

/-- Thread `t` needs a lock that thread `u` owns. -/
def WaitsFor (s : State T L I) (t u : T) : Prop := ∃ l, wants (s.todo t)=some l ∧ s.owner l=some u

/-- The thread is awake and its next statement can be executed. -/
def Ready [DecidableEq T] [DecidableEq L] (s : State T L I) (t : T) : Prop :=
  ¬Sleeps (s.todo t) ∧ ∃ a, a.thread=t ∧ (step s a).isSome

/-- An order of the locks, and which threads use which locks at all. -/
structure Discipline (T L : Type) where
  rank : L → Nat
  uses : T → L → Prop

namespace Discipline

variable (d : Discipline T L) (t : T)

/-- No other thread uses the lock. -/
def Private (l : L) : Prop := ∀ u, d.uses u l → u=t

/-- The statement takes its locks in the order of their ranks, from rank `n` on, and sleeps only
where the thread holds nothing that others use; `quiet` says so of the locks it holds already. -/
def Fits : Nat → Prop → Code L I → Prop
  | _,_,.skip => True
  | n,quiet,.seq c e => Fits n quiet c ∧ Fits n quiet e
  | n,quiet,.choice c e => Fits n quiet c ∧ Fits n quiet e
  | n,quiet,.choose c => ∀ i, Fits n quiet (c i)
  | n,quiet,.loop c => Fits n quiet c
  | n,quiet,.locked l c => d.uses t l ∧ n ≤ d.rank l ∧ Fits (d.rank l+1) (quiet ∧ d.Private t l) c
  | n,quiet,.await l => d.uses t l ∧ n ≤ d.rank l ∧ quiet
  | _,quiet,.sleep => quiet

variable {d t} in
@[simp] theorem fits_opt {n : Nat} {quiet : Prop} {c : Code L I} :
    d.Fits t n quiet (Code.opt c) ↔ d.Fits t n quiet c := by
  simp [Code.opt,Fits]

variable {d t} in
@[simp] theorem fits_block {n : Nat} {quiet : Prop} {cs : List (Code L I)} :
    d.Fits t n quiet (Code.block cs) ↔ ∀ c∈cs, d.Fits t n quiet c := by
  induction cs with
  | nil => simp [Code.block,Fits]
  | cons c cs ih => simp [Code.block,Fits,ih]

variable {d t} in
@[simp] theorem fits_oneOf {n : Nat} {quiet : Prop} {cs : List (Code L I)} :
    d.Fits t n quiet (Code.oneOf cs) ↔ ∀ c∈cs, d.Fits t n quiet c := by
  induction cs with
  | nil => simp [Code.oneOf,Fits]
  | cons c cs ih => simp [Code.oneOf,Fits,ih]

/-- The rank from which a thread may take further locks. -/
def level : List (Item L I) → Nat
  | [] => 0
  | .unlock l::_ => d.rank l+1
  | _::k => level k

/-- All locks the thread holds are private. -/
def Quiet : List (Item L I) → Prop
  | [] => True
  | .unlock l::k => Quiet k ∧ d.Private t l
  | _::k => Quiet k

/-- What a thread has to do respects the order, above the locks it holds at that point. -/
def Sound : List (Item L I) → Prop
  | [] => True
  | .run c::k => d.Fits t (d.level k) (d.Quiet t k) c ∧ Sound k
  | .unlock l::k => d.level k ≤ d.rank l ∧ d.uses t l ∧ Sound k
  | .asleep c::k => d.Fits t (d.level k) (d.Quiet t k) c ∧ d.Quiet t k ∧ Sound k

end Discipline

/-- Every thread respects the order, and the owner of a lock is the thread that will give it back. -/
structure Inv (d : Discipline T L) (s : State T L I) : Prop where
  sound : ∀ t, d.Sound t (s.todo t)
  owner : ∀ l t, s.owner l=some t ↔ l∈held (s.todo t)

variable {d : Discipline T L} {t : T}

theorem lt_level_of_held {k : List (Item L I)} (h : d.Sound t k) {l : L} (hl : l∈held k) :
    d.rank l<d.level k := by
  induction k with
  | nil => cases hl
  | cons i k ih =>
    cases i with
    | run c => exact ih h.2 hl
    | asleep c => exact ih h.2.2 hl
    | unlock m =>
      obtain ⟨hlevel,-,hk⟩ := h
      cases List.mem_cons.mp hl with
      | inl he =>
        subst he
        exact Nat.lt_succ_self _
      | inr hl =>
        have hbelow := ih hk hl
        have : d.level (.unlock m::k)=d.rank m+1 := rfl
        omega

theorem private_of_quiet {k : List (Item L I)} (h : d.Quiet t k) {l : L} (hl : l∈held k) :
    d.Private t l := by
  induction k with
  | nil => cases hl
  | cons i k ih =>
    cases i with
    | run c => exact ih h hl
    | asleep c => exact ih h hl
    | unlock m =>
      cases List.mem_cons.mp hl with
      | inl he =>
        subst he
        exact h.2
      | inr hl => exact ih h.1 hl

theorem mem_held_of_append {l : L} (above k : List (Item L I)) : l∈held (above++.unlock l::k) := by
  induction above with
  | nil => exact List.mem_cons_self
  | cons i above ih =>
    cases i with
    | unlock m => exact List.mem_cons_of_mem m ih
    | run c => exact ih
    | asleep c => exact ih

theorem exists_append_of_mem_held {l : L} {todo : List (Item L I)} (h : l∈held todo) :
    ∃ above k, todo=above++.unlock l::k := by
  induction todo with
  | nil => cases h
  | cons i todo ih =>
    have hrest : l∈held todo → ∃ above k, i::todo=above++.unlock l::k := by
      intro h
      obtain ⟨above,k,he⟩ := ih h
      exact ⟨i::above,k,by rw [he]; rfl⟩
    cases i with
    | unlock m =>
      cases List.mem_cons.mp h with
      | inl he => exact ⟨[],todo,by rw [he]; rfl⟩
      | inr h => exact hrest h
    | run c => exact hrest h
    | asleep c => exact hrest h

theorem fits_of_wants {k : List (Item L I)} (h : d.Sound t k) {l : L} (hw : wants k=some l) :
    d.uses t l ∧ d.level k ≤ d.rank l := by
  unfold wants at hw
  split at hw
  · cases hw
    exact ⟨h.1.1,h.1.2.1⟩
  · cases hw
    exact ⟨h.1.1,h.1.2.1⟩
  · cases hw

theorem quiet_of_sleeps {k : List (Item L I)} (h : d.Sound t k) (hs : Sleeps k) : d.Quiet t k := by
  unfold Sleeps at hs
  split at hs
  · exact h.2.1
  · cases hs

/-- A thread that sleeps wants no lock. -/
theorem wants_eq_none_of_sleeps {k : List (Item L I)} (hs : Sleeps k) : wants k=none := by
  unfold Sleeps at hs
  split at hs
  · rfl
  · cases hs

section Run

variable [DecidableEq T] [DecidableEq L] {s s' : State T L I}

omit [DecidableEq T] [DecidableEq L] in
theorem inv_init {code : T → Code L I} (h : ∀ t, d.Fits t 0 True (code t)) :
    Inv d (State.init code) :=
  ⟨fun t => ⟨h t,trivial⟩,fun l t => by simp [State.init,held]⟩

omit [DecidableEq L] in
/-- A step of a thread that takes and releases nothing. -/
theorem Inv.set (h : Inv d s) {t : T} {k : List (Item L I)} (hk : d.Sound t k)
    (hheld : held k=held (s.todo t)) : Inv d (s.set t k) := by
  refine ⟨?_,?_⟩
  · intro u
    simp only [State.set]
    by_cases hu : u=t
    · subst hu
      rw [Function.update_self]
      exact hk
    · rw [Function.update_of_ne hu]
      exact h.sound u
  · intro l u
    simp only [State.set]
    rw [h.owner l u]
    by_cases hu : u=t
    · subst hu
      rw [Function.update_self,hheld]
    · rw [Function.update_of_ne hu]

theorem Inv.take (h : Inv d s) {t : T} {l : L} {k : List (Item L I)} (hk : d.Sound t k)
    (hheld : held k=l::held (s.todo t)) (hs : s.take t l k=some s') : Inv d s' := by
  unfold State.take at hs
  split at hs
  · rename_i hfree
    cases hs
    refine ⟨?_,?_⟩
    · intro u
      simp only [State.set]
      by_cases hu : u=t
      · subst hu
        rw [Function.update_self]
        exact hk
      · rw [Function.update_of_ne hu]
        exact h.sound u
    · intro m u
      simp only [State.set]
      by_cases hu : u=t
      · subst hu
        rw [Function.update_self,hheld,List.mem_cons]
        by_cases hm : m=l
        · simp [hm]
        · rw [Function.update_of_ne hm,h.owner m u]
          simp [hm]
      · rw [Function.update_of_ne hu]
        by_cases hm : m=l
        · -- the lock was free, so that no other thread holds it
          subst hm
          rw [Function.update_self,← h.owner m u,hfree]
          simp [Ne.symm hu]
        · rw [Function.update_of_ne hm,h.owner m u]
  · cases hs

theorem Inv.release (h : Inv d s) {t : T} {l : L} {k : List (Item L I)}
    (ht : s.todo t=.unlock l::k) : Inv d ((s.release l).set t k) := by
  have hsound := h.sound t
  rw [ht] at hsound
  obtain ⟨hlevel,-,hk⟩ := hsound
  have hnew : l∉held k := by
    intro hl
    have := lt_level_of_held hk hl
    omega
  have howner : s.owner l=some t := (h.owner l t).mpr (by rw [ht]; exact List.mem_cons_self)
  refine ⟨?_,?_⟩
  · intro u
    simp only [State.set,State.release]
    by_cases hu : u=t
    · subst hu
      rw [Function.update_self]
      exact hk
    · rw [Function.update_of_ne hu]
      exact h.sound u
  · intro m u
    simp only [State.set,State.release]
    by_cases hm : m=l
    · subst hm
      rw [Function.update_self]
      by_cases hu : u=t
      · subst hu
        rw [Function.update_self]
        simp [hnew]
      · rw [Function.update_of_ne hu,← h.owner m u,howner]
        simp [Ne.symm hu]
    · rw [Function.update_of_ne hm,h.owner m u]
      by_cases hu : u=t
      · subst hu
        rw [Function.update_self,ht]
        simp [held,hm]
      · rw [Function.update_of_ne hu]

theorem Inv.step (h : Inv d s) {a : Action T I} (hs : step s a=some s') : Inv d s' := by
  have hsound := h.sound a.thread
  unfold Locks.step at hs
  split at hs
  case h_1 => cases hs
  all_goals
    rename_i heq
    rw [heq] at hsound
  case h_2 =>
    cases hs
    exact h.set hsound.2 (by rw [heq]; rfl)
  case h_3 =>
    cases hs
    exact h.set ⟨hsound.1.1,hsound.1.2,hsound.2⟩ (by rw [heq]; rfl)
  case h_4 =>
    cases hs
    refine h.set ⟨?_,hsound.2⟩ (by rw [heq]; rfl)
    split
    · exact hsound.1.1
    · exact hsound.1.2
  case h_5 =>
    cases hs
    exact h.set ⟨hsound.1 a.item,hsound.2⟩ (by rw [heq]; rfl)
  case h_6 =>
    cases hs
    split
    · exact h.set ⟨hsound.1,hsound.1,hsound.2⟩ (by rw [heq]; rfl)
    · exact h.set hsound.2 (by rw [heq]; rfl)
  case h_7 l c k =>
    obtain ⟨⟨huses,hrank,hbody⟩,hk⟩ := hsound
    have hnext : d.Sound a.thread (.run c::.unlock l::k) := ⟨hbody,hrank,huses,hk⟩
    exact h.take hnext (by rw [heq]; rfl) hs
  case h_8 l k =>
    obtain ⟨⟨huses,hrank,hquiet⟩,hk⟩ := hsound
    have hsleep : d.Sound a.thread (.asleep (.await l)::k) := ⟨⟨huses,hrank,hquiet⟩,hquiet,hk⟩
    refine h.take ?_ ?_ hs
    · split
      · exact ⟨hrank,huses,hk⟩
      · exact ⟨hrank,huses,hsleep⟩
    · split <;> rw [heq] <;> rfl
  case h_9 =>
    cases hs
    exact h.set ⟨trivial,hsound.1,hsound.2⟩ (by rw [heq]; rfl)
  case h_10 =>
    cases hs
    exact h.release heq
  case h_11 =>
    cases hs
    exact h.set ⟨hsound.1,hsound.2.2⟩ (by rw [heq]; rfl)

theorem Inv.reaches (h : Inv d s) {ok : State T L I → Action T I → Prop}
    (hr : Reaches Locks.step ok s s') : Inv d s' :=
  hr.invariant h fun _ _ _ hi _ hs => hi.step hs

theorem reaches_inv {code : T → Code L I} (hcode : ∀ t, d.Fits t 0 True (code t))
    (h : Reaches step Any (State.init code) s) : Inv d s :=
  (inv_init hcode).reaches h

theorem todo_of_ne {a : Action T I} (hs : step s a=some s') {t : T} (ht : a.thread≠t) :
    s'.todo t=s.todo t := by
  unfold Locks.step at hs
  split at hs
  case h_7 =>
    unfold State.take at hs
    split at hs <;> cases hs
    exact Function.update_of_ne ht.symm _ _
  case h_8 =>
    unfold State.take at hs
    split at hs <;> cases hs
    exact Function.update_of_ne ht.symm _ _
  all_goals
    cases hs
    try exact Function.update_of_ne ht.symm _ _

/-- A thread that is awake is ready or waits for a lock that another thread owns. -/
theorem ready_or_waitsFor [Nonempty I] {t : T} (hwork : s.todo t≠[]) (hawake : ¬Sleeps (s.todo t)) :
    Ready s t ∨ ∃ u, WaitsFor s t u := by
  obtain ⟨i⟩ := ‹Nonempty I›
  have hready : ∀ s'', step s ⟨t,true,i⟩=some s'' → Ready s t :=
    fun s'' hs => ⟨hawake,⟨t,true,i⟩,rfl,by rw [hs]; rfl⟩
  cases htodo : s.todo t with
  | nil => exact absurd htodo hwork
  | cons item k =>
    cases item with
    | unlock l => exact Or.inl (hready _ (by simp only [step,htodo]; rfl))
    | asleep c =>
      rw [htodo] at hawake
      exact absurd trivial hawake
    | run c =>
      cases c with
      | locked l c =>
        cases howner : s.owner l with
        | none => exact Or.inl (hready _ (by simp only [step,htodo,State.take,howner]; rfl))
        | some u => exact Or.inr ⟨u,l,by rw [htodo]; rfl,howner⟩
      | await l =>
        cases howner : s.owner l with
        | none => exact Or.inl (hready _ (by simp only [step,htodo,State.take,howner]; rfl))
        | some u => exact Or.inr ⟨u,l,by rw [htodo]; rfl,howner⟩
      | _ => exact Or.inl (hready _ (by simp only [step,htodo]; rfl))

omit [DecidableEq T] [DecidableEq L] in
/-- A thread that sleeps owns nothing that others use. -/
theorem Inv.private_of_sleeps (h : Inv d s) {t : T} (hs : Sleeps (s.todo t)) {l : L}
    (ho : s.owner l=some t) : d.Private t l :=
  private_of_quiet (quiet_of_sleeps (h.sound t) hs) ((h.owner l t).mp ho)

omit [DecidableEq T] [DecidableEq L] in
/-- The owner of a lock that some thread waits for is awake, and waits, if at all, for a lock of
higher rank. -/
theorem Inv.owner_of_waitsFor (h : Inv d s) {t u : T} {l : L} (hw : wants (s.todo t)=some l)
    (ho : s.owner l=some u) : s.todo u≠[] ∧ ¬Sleeps (s.todo u) ∧
      ∀ m, wants (s.todo u)=some m → d.rank l<d.rank m := by
  have hheld : l∈held (s.todo u) := (h.owner l u).mp ho
  refine ⟨?_,?_,?_⟩
  · intro he
    rw [he] at hheld
    cases hheld
  · intro hs
    have he := h.private_of_sleeps hs ho t (fits_of_wants (h.sound t) hw).1
    subst he
    rw [wants_eq_none_of_sleeps hs] at hw
    cases hw
  · intro m hm
    have hlow := lt_level_of_held (h.sound u) hheld
    have hhigh := (fits_of_wants (h.sound u) hm).2
    omega

/-- From every thread that is awake the owners of the locks waited for lead to one that can go on. -/
theorem Inv.exists_ready [Nonempty I] (h : Inv d s) {bound : Nat} (hbound : ∀ l, d.rank l ≤ bound)
    {t : T} (hwork : s.todo t≠[]) (hawake : ¬Sleeps (s.todo t)) :
    ∃ u, Relation.ReflTransGen (WaitsFor s) t u ∧ Ready s u := by
  -- the rank of the awaited lock grows along the chain of owners
  have hchain : ∀ n (t : T), s.todo t≠[] → ¬Sleeps (s.todo t) →
      (∀ l, wants (s.todo t)=some l → bound<d.rank l+n) →
      ∃ u, Relation.ReflTransGen (WaitsFor s) t u ∧ Ready s u := by
    intro n
    induction n with
    | zero =>
      intro t hwork hawake hrank
      cases ready_or_waitsFor hwork hawake with
      | inl hready => exact ⟨t,.refl,hready⟩
      | inr hwait =>
        obtain ⟨u,l,hl,-⟩ := hwait
        have := hrank l hl
        have := hbound l
        omega
    | succ n ih =>
      intro t hwork hawake hrank
      cases ready_or_waitsFor hwork hawake with
      | inl hready => exact ⟨t,.refl,hready⟩
      | inr hwait =>
        obtain ⟨u,l,hl,ho⟩ := hwait
        obtain ⟨huwork,huawake,hup⟩ := h.owner_of_waitsFor hl ho
        obtain ⟨v,hv,hready⟩ := ih u huwork huawake (by
          intro m hm
          have := hup m hm
          have := hrank l hl
          omega)
        exact ⟨v,.head ⟨l,hl,ho⟩ hv,hready⟩
  exact hchain (bound+1) t hwork hawake fun l _ => by omega

/-- Steps of threads that own a lock of rank `r` or more. -/
def Above (d : Discipline T L) (r : Nat) (s : State T L I) (a : Action T I) : Prop :=
  ∃ l∈held (s.todo a.thread), r ≤ d.rank l

/-- Such steps are not those of a thread whose locks are all of lower rank. -/
theorem others_of_above {r : Nat} {t : T} (h : Reaches step (Above d r) s s')
    (hlow : ∀ l∈held (s.todo t), d.rank l<r) :
    Reaches step (fun _ a => a.thread≠t) s s' ∧ s'.todo t=s.todo t := by
  induction h with
  | refl => exact ⟨Reaches.refl,rfl⟩
  | tail _ hstep ih =>
    obtain ⟨a,⟨l,hl,hr⟩,hs⟩ := hstep
    have hne : a.thread≠t := by
      intro he
      rw [he,ih.2] at hl
      have := hlow l hl
      omega
    exact ⟨ih.1.tail hne hs,(todo_of_ne hs hne).trans ih.2⟩

/-- A lock that some thread waits for can be freed by threads that own it or a higher one. -/
def CanFree (I : Type) (d : Discipline T L) (l : L) : Prop :=
  ∀ (s : State T L I) (t : T), Inv d s → wants (s.todo t)=some l →
    ∃ s', Reaches step (Above d (d.rank l)) s s' ∧ s'.owner l=none

section Free

variable {l : L} {u : T}

theorem reaches_step (hl : l∈held (s.todo u)) (first : Bool) (i : I)
    (hs : step s ⟨u,first,i⟩=some s') : Reaches step (Above d (d.rank l)) s s' :=
  Reaches.refl.tail ⟨l,hl,Nat.le_refl _⟩ hs

/-- The thread goes on below a lock that it keeps. -/
theorem reaches_set (hl : l∈held (s.todo u)) (first : Bool) (i : I) {k : List (Item L I)}
    (hs : step s ⟨u,first,i⟩=some (s.set u k)) :
    ∃ s', Reaches step (Above d (d.rank l)) s s' ∧ s'.todo u=k :=
  ⟨s.set u k,reaches_step hl first i hs,s.set_todo_self u k⟩

/-- The owner of a lock gets the next lock it wants without moving. -/
theorem exists_free {m : L} (hfree : CanFree I d m) (h : Inv d s) (hw : wants (s.todo u)=some m)
    (hlt : d.rank l<d.rank m) :
    ∃ s', Reaches step (Above d (d.rank l)) s s' ∧ s'.owner m=none ∧ s'.todo u=s.todo u := by
  obtain ⟨s',hr,ho⟩ := hfree s u h hw
  have hlow : ∀ j∈held (s.todo u), d.rank j<d.rank m := by
    intro j hj
    have := lt_level_of_held (h.sound u) hj
    have := (fits_of_wants (h.sound u) hw).2
    omega
  refine ⟨s',hr.mono ?_,ho,(others_of_above hr hlow).2⟩
  intro x a habove
  obtain ⟨j,hj,hjr⟩ := habove
  exact ⟨j,hj,by omega⟩

/-- A statement above a lock that others use runs to its end. -/
theorem exists_run [Nonempty I] (hshared : ¬d.Private u l)
    (hfree : ∀ m, d.rank l<d.rank m → CanFree I d m) (c : Code L I) {s : State T L I}
    {k : List (Item L I)} (h : Inv d s) (ht : s.todo u=.run c::k) (hl : l∈held k) :
    ∃ s', Reaches step (Above d (d.rank l)) s s' ∧ s'.todo u=k := by
  obtain ⟨i⟩ := ‹Nonempty I›
  induction c generalizing s k with
  | skip =>
    have hheld : l∈held (s.todo u) := by rw [ht]; exact hl
    exact reaches_set hheld true i (by simp only [step,ht])
  | seq c e ihc ihe =>
    have hheld : l∈held (s.todo u) := by rw [ht]; exact hl
    obtain ⟨s1,h1,ht1⟩ := reaches_set (d:=d) hheld true i
      (k:=.run c::.run e::k) (by simp only [step,ht])
    obtain ⟨s2,h2,ht2⟩ := ihc (h.reaches h1) ht1 hl
    obtain ⟨s3,h3,ht3⟩ := ihe ((h.reaches h1).reaches h2) ht2 hl
    exact ⟨s3,(h1.trans h2).trans h3,ht3⟩
  | choice c e ihc ihe =>
    have hheld : l∈held (s.todo u) := by rw [ht]; exact hl
    obtain ⟨s1,h1,ht1⟩ := reaches_set (d:=d) hheld true i
      (k:=.run c::k) (by simp only [step,ht,if_true])
    obtain ⟨s2,h2,ht2⟩ := ihc (h.reaches h1) ht1 hl
    exact ⟨s2,h1.trans h2,ht2⟩
  | choose c ih =>
    have hheld : l∈held (s.todo u) := by rw [ht]; exact hl
    obtain ⟨s1,h1,ht1⟩ := reaches_set (d:=d) hheld true i
      (k:=.run (c i)::k) (by simp only [step,ht])
    obtain ⟨s2,h2,ht2⟩ := ih i (h.reaches h1) ht1 hl
    exact ⟨s2,h1.trans h2,ht2⟩
  | loop c ih =>
    -- the loop is left at once
    have hheld : l∈held (s.todo u) := by rw [ht]; exact hl
    exact reaches_set hheld false i (by simp only [step,ht]; rfl)
  | locked m c ih =>
    have hsound := h.sound u
    rw [ht] at hsound
    have hlt : d.rank l<d.rank m := by
      have := lt_level_of_held hsound.2 hl
      have := hsound.1.2.1
      omega
    obtain ⟨s1,h1,ho1,ht1⟩ := exists_free (hfree m hlt) h (by rw [ht]; rfl) hlt
    rw [ht] at ht1
    have hheld : l∈held (s1.todo u) := by rw [ht1]; exact hl
    let s2 : State T L I :=
      { s1 with owner := Function.update s1.owner m (some u) }.set u (.run c::.unlock m::k)
    have h2 : Reaches step (Above d (d.rank l)) s1 s2 :=
      reaches_step hheld true i (by simp only [step,ht1,State.take,ho1]; rfl)
    have ht2 : s2.todo u=.run c::.unlock m::k := State.set_todo_self _ u _
    have hl2 : l∈held (Item.unlock (I:=I) m::k) := List.mem_cons_of_mem m hl
    obtain ⟨s3,h3,ht3⟩ := ih ((h.reaches h1).reaches h2) ht2 hl2
    have hheld3 : l∈held (s3.todo u) := by rw [ht3]; exact hl2
    have h4 : Reaches step (Above d (d.rank l)) s3 ((s3.release m).set u k) :=
      reaches_step hheld3 true i (by simp only [step,ht3])
    exact ⟨_,((h1.trans h2).trans h3).trans h4,State.set_todo_self _ u k⟩
  | await m =>
    have hsound := h.sound u
    rw [ht] at hsound
    exact absurd (private_of_quiet hsound.1.2.2 hl) hshared
  | sleep =>
    have hsound := h.sound u
    rw [ht] at hsound
    exact absurd (private_of_quiet hsound.1 hl) hshared

/-- The owner of a lock that others use works its way down to the point where it gives it back. -/
theorem exists_release [Nonempty I] (hshared : ¬d.Private u l)
    (hfree : ∀ m, d.rank l<d.rank m → CanFree I d m) (above : List (Item L I)) {s : State T L I}
    {k : List (Item L I)} (h : Inv d s) (ht : s.todo u=above++.unlock l::k) :
    ∃ s', Reaches step (Above d (d.rank l)) s s' ∧ s'.owner l=none := by
  obtain ⟨i⟩ := ‹Nonempty I›
  have hheld : l∈held (s.todo u) := by
    rw [ht]
    exact mem_held_of_append above k
  induction above generalizing s with
  | nil =>
    refine ⟨(s.release l).set u k,?_,?_⟩
    · exact reaches_step hheld true i (by simp only [step,ht,List.nil_append])
    · exact Function.update_self l none s.owner
  | cons item above ih =>
    have hbelow := mem_held_of_append (l:=l) above k
    have hnext : ∀ s1 : State T L I, Reaches step (Above d (d.rank l)) s s1 →
        s1.todo u=above++.unlock l::k →
        ∃ s', Reaches step (Above d (d.rank l)) s s' ∧ s'.owner l=none := by
      intro s1 h1 ht1
      obtain ⟨s2,h2,ho2⟩ := ih (h.reaches h1) ht1 (by rw [ht1]; exact hbelow)
      exact ⟨s2,h1.trans h2,ho2⟩
    cases item with
    | run c =>
      obtain ⟨s1,h1,ht1⟩ := exists_run hshared hfree c h ht hbelow
      exact hnext s1 h1 ht1
    | unlock m =>
      refine hnext ((s.release m).set u (above++.unlock l::k)) (reaches_step hheld true i ?_)
        (State.set_todo_self _ u _)
      simp only [step,ht,List.cons_append]
    | asleep c =>
      have hsound := h.sound u
      rw [ht] at hsound
      exact absurd (private_of_quiet hsound.2.1 hbelow) hshared

end Free

theorem canFree [Nonempty I] {bound : Nat} (hbound : ∀ l, d.rank l ≤ bound) (l : L) :
    CanFree I d l := by
  -- higher locks first
  have hup : ∀ n (l : L), bound<d.rank l+n → CanFree I d l := by
    intro n
    induction n with
    | zero =>
      intro l hl
      have := hbound l
      omega
    | succ n ih =>
      intro l hl s t h hw
      cases ho : s.owner l with
      | none => exact ⟨s,Reaches.refl,ho⟩
      | some u =>
        have hheld := (h.owner l u).mp ho
        have hshared : ¬d.Private u l := by
          intro hprivate
          obtain ⟨huses,hlevel⟩ := fits_of_wants (h.sound t) hw
          have he := hprivate t huses
          subst he
          have := lt_level_of_held (h.sound t) hheld
          omega
        obtain ⟨above,k,hk⟩ := exists_append_of_mem_held hheld
        exact exists_release hshared (fun m hm => ih m (by omega)) above h hk
  exact hup (bound+1) l (by omega)

/-- Whatever has happened, a thread that is awake can be brought to its next step by the others. -/
theorem Inv.can_go_on [Nonempty I] (h : Inv d s) {bound : Nat} (hbound : ∀ l, d.rank l ≤ bound)
    {t : T} (hwork : s.todo t≠[]) (hawake : ¬Sleeps (s.todo t)) :
    ∃ s', Reaches Locks.step (fun _ a => a.thread≠t) s s' ∧ s'.todo t=s.todo t ∧ Ready s' t := by
  cases ready_or_waitsFor hwork hawake with
  | inl hready => exact ⟨s,Reaches.refl,rfl,hready⟩
  | inr hwait =>
    obtain ⟨u,l,hl,ho⟩ := hwait
    obtain ⟨s',hr,hfree⟩ := canFree hbound l s t h hl
    have hlow : ∀ j∈held (s.todo t), d.rank j<d.rank l := by
      intro j hj
      have := lt_level_of_held (h.sound t) hj
      have := (fits_of_wants (h.sound t) hl).2
      omega
    obtain ⟨hothers,htodo⟩ := others_of_above hr hlow
    refine ⟨s',hothers,htodo,?_⟩
    cases ready_or_waitsFor (by rw [htodo]; exact hwork) (by rw [htodo]; exact hawake) with
    | inl hready => exact hready
    | inr hwait =>
      obtain ⟨v,m,hm,hv⟩ := hwait
      rw [htodo,hl] at hm
      cases hm
      rw [hfree] at hv
      cases hv

end Run

end IocpServer.Locks

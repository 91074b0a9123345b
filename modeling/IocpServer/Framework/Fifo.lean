import IocpServer.Framework.Machine

namespace IocpServer

/-- A queue of jobs of which at most one is running. -/
structure Fifo (J : Type*) where
  waiting : List J
  running : Bool

namespace Fifo

inductive Event (J : Type*) where
  | enqueue (job : J)
  | start (job : J)
  | finish

variable {J : Type*}

def empty : Fifo J := ⟨[],false⟩

/-- A job is enqueued at the end; the first one starts when none is running. -/
inductive Step : Fifo J → Event J → Fifo J → Prop
  | enqueue (waiting : List J) (running : Bool) (job : J) :
      Step ⟨waiting,running⟩ (.enqueue job) ⟨waiting++[job],running⟩
  | start (job : J) (rest : List J) : Step ⟨job::rest,false⟩ (.start job) ⟨rest,true⟩
  | finish (waiting : List J) : Step ⟨waiting,true⟩ .finish ⟨waiting,false⟩

end Fifo

section

variable {σ α τ ε : Type*} (step : σ → α → Option σ) (event : σ → α → Option ε)
  (R : τ → ε → τ → Prop)

/-- What a run shows. -/
def trace : σ → List α → List ε
  | _,[] => []
  | s,a::as => (event s a).toList++(step s a).elim [] fun s' => trace s' as

/-- A step that shows nothing changes nothing; another is a step of `R`. -/
def Matches (x : τ) : Option ε → τ → Prop
  | none,y => y=x
  | some ev,y => R x ev y

/-- The runs of `R` with what they show. -/
inductive Traces : τ → List ε → τ → Prop
  | nil (x : τ) : Traces x [] x
  | cons {x y z : τ} {ev : ε} {evs : List ε} (h : R x ev y) (hrest : Traces y evs z) :
      Traces x (ev::evs) z

end

variable {σ α τ ε : Type*} {step : σ → α → Option σ} {R : τ → ε → τ → Prop}

/-- If every step is matched, so is every run. -/
theorem Traces.of_matches {I : σ → Prop} (event : σ → α → Option ε) (abs : σ → τ)
    (hinv : ∀ s a t, I s → step s a=some t → I t)
    (hmatch : ∀ s a t, I s → step s a=some t → Matches R (abs s) (event s a) (abs t))
    (as : List α) {s t : σ} (hs : I s) (h : runActions step s as=some t) :
    Traces R (abs s) (trace step event s as) (abs t) := by
  induction as generalizing s with
  | nil =>
    cases h
    exact .nil _
  | cons a as ih =>
    obtain ⟨u,hu,hrest⟩ := Option.bind_eq_some_iff.mp h
    have htail := ih (hinv s a u hs hu) hrest
    have hhead := hmatch s a u hs hu
    simp only [trace,hu,Option.elim_some]
    cases hev : event s a with
    | none =>
      rw [hev] at hhead
      rw [← show abs u=abs s from hhead]
      exact htail
    | some ev =>
      rw [hev] at hhead
      exact .cons hhead htail

theorem Traces.snoc {x y z : τ} {evs : List ε} {ev : ε} (h : Traces R x evs y) (hlast : R y ev z) :
    Traces R x (evs++[ev]) z := by
  induction h with
  | nil x => exact .cons hlast (.nil z)
  | cons hfirst _ ih => exact .cons hfirst (ih hlast)

/-- The same for runs of admitted actions. -/
theorem Traces.of_reaches {ok : σ → α → Prop} (event : σ → α → Option ε) (abs : σ → τ) {s t : σ}
    (h : Reaches step ok s t)
    (hmatch : ∀ u a v, Reaches step ok s u → ok u a → step u a=some v →
      Matches R (abs u) (event u a) (abs v)) : ∃ evs, Traces R (abs s) evs (abs t) := by
  induction h with
  | refl => exact ⟨[],.nil _⟩
  | @tail u v hr hs ih =>
    obtain ⟨evs,htraces⟩ := ih
    obtain ⟨a,hok,hs⟩ := hs
    have hlast := hmatch u a v hr hok hs
    cases hev : event u a with
    | none =>
      rw [hev] at hlast
      rw [show abs v=abs u from hlast]
      exact ⟨evs,htraces⟩
    | some ev =>
      rw [hev] at hlast
      exact ⟨evs++[ev],htraces.snoc hlast⟩

end IocpServer

import Mathlib.Data.List.Basic

namespace IocpServer.Framing

variable {α : Type*}

/-- Frames that begin with a header of fixed length, from which the size of the whole frame is
read. -/
structure Format (α : Type*) where
  header : Nat
  size : List α → Nat
  header_pos : 0<header
  size_append : ∀ s t, header ≤ s.length → size (s++t)=size s

/-- The frames of a stream, what is left of it and whether the rest begins with a header that
announces less than itself. -/
structure Parsed (α : Type*) where
  frames : List (List α)
  rest : List α
  malformed : Bool

variable (F : Format α)

/-- Takes frames off the stream as long as they are complete. -/
def parse (s : List α) : Parsed α :=
  if s.length<F.header then ⟨[],s,false⟩
  else if F.size s<F.header then ⟨[],s,true⟩
  else if s.length<F.size s then ⟨[],s,false⟩
  else
    let p := parse (s.drop (F.size s))
    ⟨s.take (F.size s)::p.frames,p.rest,p.malformed⟩
termination_by s.length
decreasing_by
  have := F.header_pos
  rw [List.length_drop]
  omega

/-- A complete frame. -/
def WellFormed (f : List α) : Prop := F.header ≤ f.length ∧ F.size f=f.length

variable {F}

theorem parse_of_short {s : List α} (h : s.length<F.header) : parse F s=⟨[],s,false⟩ := by
  rw [parse,if_pos h]

theorem parse_of_malformed {s : List α} (h : F.header ≤ s.length) (hm : F.size s<F.header) :
    parse F s=⟨[],s,true⟩ := by
  rw [parse,if_neg (Nat.not_lt.mpr h),if_pos hm]

theorem parse_of_incomplete {s : List α} (h : F.header ≤ F.size s) (hw : s.length<F.size s) :
    parse F s=⟨[],s,false⟩ := by
  rw [parse,if_neg (Nat.not_lt.mpr h),if_pos hw]
  split <;> rfl

theorem wellFormed_take {s : List α} (h : F.header ≤ F.size s) (hle : F.size s ≤ s.length) :
    WellFormed F (s.take (F.size s)) := by
  have hlen : (s.take (F.size s)).length=F.size s := List.length_take_of_le hle
  have hsize := F.size_append (s.take (F.size s)) (s.drop (F.size s)) (by omega)
  rw [List.take_append_drop] at hsize
  exact ⟨by omega,by omega⟩

/-- A complete frame at the head of a stream is the first frame. -/
theorem parse_append_frame {f : List α} (hf : WellFormed F f) (s : List α) :
    parse F (f++s)=⟨f::(parse F s).frames,(parse F s).rest,(parse F s).malformed⟩ := by
  obtain ⟨hle,hsize⟩ := hf
  have hs : F.size (f++s)=f.length := (F.size_append f s hle).trans hsize
  rw [parse,hs,List.length_append,if_neg (by omega),if_neg (by omega),if_neg (by omega),
    List.drop_left,List.take_left]

theorem parse_nil : parse F []=⟨[],[],false⟩ := parse_of_short F.header_pos

theorem parse_flatten {fs : List (List α)} (h : ∀ f∈fs, WellFormed F f) :
    parse F fs.flatten=⟨fs,[],false⟩ := by
  induction fs with
  | nil => exact parse_nil
  | cons f fs ih =>
    have hfs := ih fun g hg => h g (List.mem_cons_of_mem f hg)
    rw [List.flatten_cons,parse_append_frame (h f List.mem_cons_self),hfs]

/-- The frames and the rest make up the stream, and every frame is complete. -/
theorem parse_sound (s : List α) :
    (parse F s).frames.flatten++(parse F s).rest=s ∧ ∀ f∈(parse F s).frames, WellFormed F f := by
  fun_induction parse F s with
  | case1 s h => exact ⟨rfl,nofun⟩
  | case2 s h hm => exact ⟨rfl,nofun⟩
  | case3 s h hm hw => exact ⟨rfl,nofun⟩
  | case4 s h hm hw p ih =>
    obtain ⟨hcat,hall⟩ := ih
    refine ⟨?_,?_⟩
    · rw [List.flatten_cons,List.append_assoc,hcat,List.take_append_drop]
    · intro f hf
      rcases List.mem_cons.mp hf with rfl|hf
      · exact wellFormed_take (Nat.not_lt.mp hm) (Nat.not_lt.mp hw)
      · exact hall f hf

/-- A rest that is not malformed is too short for its header or for its frame. -/
theorem parse_waits {s : List α} (h : (parse F s).malformed=false) :
    (parse F s).rest.length<F.header ∨ (parse F s).rest.length<F.size (parse F s).rest := by
  fun_induction parse F s with
  | case1 s hs => exact Or.inl hs
  | case2 s hs hm => cases h
  | case3 s hs hm hw => exact Or.inr hw
  | case4 s hs hm hw p ih => exact ih h

/-- A stream may be parsed piece by piece: the rest of the first piece goes before the second. -/
theorem parse_append (s t : List α) :
    parse F (s++t)=
      if (parse F s).malformed then ⟨(parse F s).frames,(parse F s).rest++t,true⟩
      else
        ⟨(parse F s).frames++(parse F ((parse F s).rest++t)).frames,
          (parse F ((parse F s).rest++t)).rest,(parse F ((parse F s).rest++t)).malformed⟩ := by
  fun_induction parse F s with
  | case1 s hs => simp
  | case2 s hs hm =>
    have hsize := F.size_append s t (by omega)
    have hlen : F.header ≤ (s++t).length := by
      rw [List.length_append]
      omega
    rw [parse_of_malformed hlen (by omega),if_pos rfl]
  | case3 s hs hm hw => simp
  | case4 s hs hm hw p ih =>
    have hf := wellFormed_take (Nat.not_lt.mp hm) (Nat.not_lt.mp hw)
    have hcut : s++t=s.take (F.size s)++(s.drop (F.size s)++t) := by
      rw [← List.append_assoc,List.take_append_drop]
    rw [hcut,parse_append_frame hf,ih]
    simp only [p]
    split <;> rfl

/-- Complete frames whose bytes begin a stream of complete frames are its first frames. -/
theorem frames_isPrefix {fs gs : List (List α)} (hf : ∀ f∈fs, WellFormed F f)
    (hg : ∀ g∈gs, WellFormed F g) (h : fs.flatten<+:gs.flatten) : fs<+:gs := by
  obtain ⟨t,ht⟩ := h
  have hfs := parse_flatten hf
  have hgs := parse_flatten hg
  rw [← ht,parse_append,hfs] at hgs
  have hframes := congrArg Parsed.frames hgs
  exact ⟨_,hframes⟩

/-- The next piece of a stream of which `n` bytes are delivered. -/
theorem take_piece {piece rest stream : List α} {n : Nat} (hn : n ≤ stream.length)
    (h : piece++rest<+:stream.drop n) :
    n+piece.length ≤ stream.length ∧ (stream.drop n).take piece.length=piece ∧
      rest<+:stream.drop (n+piece.length) := by
  obtain ⟨more,hmore⟩ := h
  have hlen := congrArg List.length hmore
  simp only [List.length_append,List.length_drop] at hlen
  refine ⟨by omega,?_,?_⟩
  · rw [← hmore,List.append_assoc,List.take_left]
  · rw [← List.drop_drop,← hmore,List.append_assoc,List.drop_left]
    exact List.prefix_append _ _

end IocpServer.Framing

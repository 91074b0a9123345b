import IocpServer.Config.ByteOrderMark
import IocpServer.Config.ClientConfig

namespace IocpServer.Config

open Word

/-- The text is an integer as a whole: after the whitespace that `stoi` skips, a sign and digits up to
the end. -/
def Spells (value : Text) (n : Int) : Prop :=
  ∃ blanks sgn digits, value=blanks++sgn++digits ∧ (∀ c∈blanks, isSpace c) ∧ digits≠[] ∧
    (∀ c∈digits, isDigit c) ∧
    ((sgn=[] ∨ sgn=[ascii '+']) ∧ n=decimal digits ∨ sgn=[ascii '-'] ∧ n= -decimal digits)

theorem sign_spec (rest : Text) :
    ∃ sgn, rest=sgn++(sign rest).2 ∧
      ((sign rest).1=false ∧ (sgn=[] ∨ sgn=[ascii '+']) ∨ (sign rest).1=true ∧ sgn=[ascii '-']) := by
  cases rest with
  | nil => exact ⟨[],rfl,Or.inl ⟨rfl,Or.inl rfl⟩⟩
  | cons c cs =>
    simp only [sign]
    by_cases hminus : c=ascii '-'
    · rw [if_pos hminus,hminus]
      exact ⟨[ascii '-'],rfl,Or.inr ⟨rfl,rfl⟩⟩
    · rw [if_neg hminus]
      by_cases hplus : c=ascii '+'
      · rw [if_pos hplus,hplus]
        exact ⟨[ascii '+'],rfl,Or.inl ⟨rfl,Or.inr rfl⟩⟩
      · rw [if_neg hplus]
        exact ⟨[],rfl,Or.inl ⟨rfl,Or.inl rfl⟩⟩

/-- What `stoi` consumes to the end is an integer. -/
theorem spells_of_stoi {value : Text} {n : Int} (h : stoi value=some (n,value.length)) :
    Spells value n := by
  obtain ⟨sgn,hrest,hsign⟩ := sign_spec (value.dropWhile isSpace)
  have hvalue : value=value.takeWhile isSpace++(sgn++(sign (value.dropWhile isSpace)).2) := by
    rw [← hrest]
    exact List.takeWhile_append_dropWhile.symm
  simp only [stoi] at h
  generalize sign (value.dropWhile isSpace)=signed at hrest hsign hvalue h
  obtain ⟨negative,body⟩ := signed
  simp only at hrest hsign hvalue h
  generalize hnumber : (if negative=true then -(decimal (body.takeWhile isDigit) : Int)
    else decimal (body.takeWhile isDigit))=number at h
  split at h
  · cases h
  · rename_i hne
    split at h
    · cases h
    · simp only [Option.some.injEq,Prod.mk.injEq] at h
      obtain ⟨hn,hstop⟩ := h
      have hprefix : body.takeWhile isDigit <+: body := List.takeWhile_prefix isDigit
      have hle := hprefix.length_le
      have hpos : 0<(body.takeWhile isDigit).length := by
        rw [List.length_pos_iff]
        intro hnil
        rw [hnil] at hne
        exact hne rfl
      have hlen := congrArg List.length hvalue
      simp only [List.length_append] at hlen
      have hwhole : body.takeWhile isDigit=body := hprefix.eq_of_length (by omega)
      refine ⟨value.takeWhile isSpace,sgn,body,?_,?_,?_,?_,?_⟩
      · rw [List.append_assoc]
        exact hvalue
      · exact fun c hc => List.mem_takeWhile_imp hc
      · rw [← hwhole]
        exact List.length_pos_iff.mp hpos
      · intro c hc
        rw [← hwhole] at hc
        exact List.mem_takeWhile_imp hc
      · rw [hwhole,hn] at hnumber
        rcases hsign with ⟨rfl,hsgn⟩|⟨rfl,hsgn⟩
        · exact Or.inl ⟨hsgn,hnumber.symm⟩
        · exact Or.inr ⟨hsgn,hnumber.symm⟩

/-- A digit is neither skipped nor taken for a sign. -/
theorem isDigit_spec {c : UInt8} (h : isDigit c) :
    isSpace c=false ∧ c≠ascii '-' ∧ c≠ascii '+' := by
  simp only [isDigit,Bool.and_eq_true,decide_eq_true_eq,UInt8.le_iff_toNat_le] at h
  have hne : ∀ d : UInt8, d.toNat<48 → c≠d := by
    rintro d hd rfl
    exact absurd h.1 (Nat.not_le.mpr hd)
  refine ⟨?_,hne _ (by decide),hne _ (by decide)⟩
  have hhi : ¬c ≤ 13 := by
    rw [UInt8.le_iff_toNat_le]
    exact Nat.not_le.mpr (Nat.lt_of_lt_of_le (by decide) h.1)
  simp [isSpace,hne 32 (by decide),hhi]

theorem sign_digits {digits : Text} (hne : digits≠[]) (h : ∀ c∈digits, isDigit c) :
    sign digits=(false,digits) := by
  obtain ⟨d,ds,rfl⟩ := List.exists_cons_of_ne_nil hne
  obtain ⟨-,hminus,hplus⟩ := isDigit_spec (h d List.mem_cons_self)
  simp only [sign,if_neg hminus,if_neg hplus]

/-- The whitespace ends where the sign or the first digit stands. -/
theorem dropWhile_spelled {blanks sgn digits : Text} (hblanks : ∀ c∈blanks, isSpace c)
    (hsgn : ∀ c∈sgn, c=ascii '+' ∨ c=ascii '-') (hne : digits≠[]) (h : ∀ c∈digits, isDigit c) :
    (blanks++sgn++digits).dropWhile isSpace=sgn++digits := by
  rw [List.append_assoc,List.dropWhile_append_of_pos hblanks]
  cases sgn with
  | nil =>
    obtain ⟨d,ds,rfl⟩ := List.exists_cons_of_ne_nil hne
    exact Strip.dropWhile_cons (isDigit_spec (h d List.mem_cons_self)).1 _
  | cons c sgn =>
    apply Strip.dropWhile_cons
    rcases hsgn c List.mem_cons_self with rfl|rfl <;> decide

/-- An integer that fits is what `stoi` reads, up to the end. -/
theorem stoi_of_spells {value : Text} {n : Int} (h : Spells value n) (hlo : -2^31 ≤ n)
    (hhi : n<2^31) : stoi value=some (n,value.length) := by
  obtain ⟨blanks,sgn,digits,rfl,hblanks,hne,hdigits,hsgn⟩ := h
  have hwhole : digits.takeWhile isDigit=digits := List.takeWhile_eq_self_iff.mpr hdigits
  have hempty : digits.isEmpty=false := by
    rw [← Bool.not_eq_true,List.isEmpty_iff]
    exact hne
  have hrange : ¬(decide (n< -2^31) || decide (2^31 ≤ n)) := by
    simp only [Bool.or_eq_true,decide_eq_true_eq,not_or]
    omega
  have hsign : (∀ c∈sgn, c=ascii '+' ∨ c=ascii '-') ∧
      ∃ negative, sign (sgn++digits)=(negative,digits) ∧
        n=if negative then -(decimal digits : Int) else decimal digits := by
    rcases hsgn with ⟨rfl|rfl,hn⟩|⟨rfl,hn⟩
    · exact ⟨fun c hc => absurd hc List.not_mem_nil,false,sign_digits hne hdigits,hn⟩
    · exact ⟨fun c hc => Or.inl (List.mem_singleton.mp hc),false,rfl,hn⟩
    · exact ⟨fun c hc => Or.inr (List.mem_singleton.mp hc),true,rfl,hn⟩
  obtain ⟨hchars,negative,hsign,hn⟩ := hsign
  simp only [stoi,dropWhile_spelled hblanks hchars hne hdigits,hsign,hwhole,hempty,← hn]
  rw [if_neg Bool.false_ne_true,if_neg hrange,Nat.sub_self,Nat.sub_zero]

/-- A numeric setting of the client; its bounds are `int32`. -/
structure Setting where
  sec : Text
  key : Text
  minimum : Int
  maximum : Int
  defaultValue : Int
  minimum_fits : -2^31 ≤ minimum
  maximum_fits : maximum<2^31

/-- The setting has the value `n`: the file spells it as a whole, or does not have the key and it is
the default; in both cases it is within the range. -/
def Accepts (sections : Sections) (x : Setting) (n : Int) : Prop :=
  (match find sections x.sec x.key with
    | none => n=x.defaultValue
    | some value => Spells value n) ∧ x.minimum ≤ n ∧ n ≤ x.maximum

/-- `read_range` accepts exactly these values. -/
theorem readRange_iff {sections : Sections} {x : Setting} {n : Int} :
    readRange sections x.sec x.key x.minimum x.maximum x.defaultValue=some n ↔
      Accepts sections x n := by
  constructor
  · intro h
    obtain ⟨hchecked,hlo,hhi⟩ := readRange_some h
    refine ⟨?_,hlo,hhi⟩
    unfold getIntChecked at hchecked
    cases hfind : find sections x.sec x.key with
    | none =>
      rw [hfind] at hchecked
      cases hchecked
      rfl
    | some value =>
      simp only [hfind] at hchecked
      split at hchecked
      · cases hchecked
      · rename_i parsed stop hstoi
        split at hchecked
        · cases hchecked
        · rename_i hstop
          cases hchecked
          rw [not_not.mp hstop] at hstoi
          exact spells_of_stoi hstoi
  · rintro ⟨hvalue,hlo,hhi⟩
    have hmin := x.minimum_fits
    have hmax := x.maximum_fits
    have hchecked : getIntChecked sections x.sec x.key x.defaultValue=some n := by
      unfold getIntChecked
      cases hfind : find sections x.sec x.key with
      | none =>
        rw [hfind] at hvalue
        rw [hvalue]
      | some value =>
        simp only [hfind] at hvalue ⊢
        simp [stoi_of_spells hvalue (by omega) (by omega)]
    simp only [readRange,hchecked]
    exact if_neg (by omega)

/-- The settings that `ClientConfig::load` reads for a load test. -/
def numericSettings : List Setting :=
  [⟨server,portKey,1,65535,0,by decide,by decide⟩,
    ⟨client,text ['s','e','s','s','i','o','n','_','c','o','u','n','t'],1,100000,0,by decide,
      by decide⟩,
    ⟨client,text ['w','o','r','k','e','r','_','t','h','r','e','a','d','_','c','o','u','n','t'],1,256,
      0,by decide,by decide⟩,
    ⟨client,text ['b','o','t','_','t','h','r','e','a','d','_','c','o','u','n','t'],1,256,0,by decide,
      by decide⟩,
    ⟨client,text ['c','h','a','t','_','i','n','t','e','r','v','a','l','_','m','s'],1,60000,0,
      by decide,by decide⟩,
    ⟨client,text ['b','o','t','_','r','o','o','m','_','c','o','u','n','t'],1,256,10,by decide,
      by decide⟩,
    ⟨client,text ['a','l','l','_','c','h','a','t','_','i','n','t','e','r','v','a','l'],1,2^31-1,10,
      by decide,by decide⟩,
    ⟨client,text ['w','h','i','s','p','e','r','_','i','n','t','e','r','v','a','l'],1,2^31-1,15,
      by decide,by decide⟩]

namespace ClientConfig

variable {W : Type} {utf8ToWString : Text → List W} {sections : Sections} {c : ClientConfig W}

/-- Its numbers in the order in which they are read. -/
def numbers (c : ClientConfig W) : List Int :=
  [c.port,c.sessionCount,c.workerThreadCount,c.botThreadCount,c.chatIntervalMs,c.botRoomCount,
    c.allChatInterval,c.whisperInterval]

/-- A load test starts exactly with an address and values that the file or the defaults give for all
numeric settings. -/
theorem load_iff :
    ClientConfig.load utf8ToWString sections true=some c ↔
      c.serverIp=getWstring utf8ToWString sections server ipKey ∧ c.serverIp≠[] ∧
        List.Forall₂ (Accepts sections) numericSettings c.numbers := by
  simp only [numericSettings,numbers,List.forall₂_cons,List.forall₂_nil_left_iff,and_true,
    ← readRange_iff]
  obtain ⟨ip,port,sessionCount,workerThreadCount,botThreadCount,chatIntervalMs,botRoomCount,
    allChatInterval,whisperInterval⟩ := c
  have hword : ∀ port, readRange sections server portKey 1 65535 0=some port → uint16 port=port := by
    intro port hport
    obtain ⟨-,hlo,hhi⟩ := readRange_some hport
    exact uint16_of_fits (by omega) (by omega)
  constructor
  · intro h
    simp only [ClientConfig.load] at h
    split at h
    · cases h
    · rename_i hip
      split at h
      · cases h
      · rename_i portValue hport
        simp only [Bool.true_eq_false,if_false,bind,pure,Option.bind_eq_some_iff,Option.some.injEq,
          ClientConfig.mk.injEq] at h
        obtain ⟨n1,h1,n2,h2,n3,h3,n4,h4,n5,h5,n6,h6,n7,h7,rfl,rfl,rfl,rfl,rfl,rfl,rfl,rfl,rfl⟩ := h
        rw [hword portValue hport]
        exact ⟨rfl,fun hnil => hip (List.isEmpty_iff.mpr hnil),hport,h1,h2,h3,h4,h5,h6,h7⟩
  · rintro ⟨rfl,hip,hport,h1,h2,h3,h4,h5,h6,h7⟩
    have hempty : (getWstring utf8ToWString sections server ipKey).isEmpty=false := by
      rw [← Bool.not_eq_true,List.isEmpty_iff]
      exact hip
    simp only [ClientConfig.load,hempty,hport,hword _ hport]
    simp only [Bool.false_eq_true,Bool.true_eq_false,if_false,bind,pure,h1,h2,h3,h4,h5,h6,h7,
      Option.bind_some]

end ClientConfig

end IocpServer.Config

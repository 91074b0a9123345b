import IocpServer.Config.ClientConfig

namespace IocpServer.Config

open Word

/-- The message with which `main` of the server gives up, with the value it prints. -/
inductive Invalid
  | port (value : Int)
  | sessionMaxCount (value : Int)
  | workerThreadCount (value : Int)

/-- What `main` takes from the configuration besides the address. -/
structure Settings where
  port : Int
  sessionMaxCount : Int
  workerThreadCount : Int

/-- The integer that `get_int` reads for the port. -/
def portSetting (sections : Sections) : Int := getInt sections server portKey 0

/-- The port as `main` takes it: converted first, then checked. -/
def checkPort (sections : Sections) : Except Invalid Int :=
  let portValue := uint16 (portSetting sections)
  if portValue ≤ 0 ∨ 65535<portValue then .error (.port portValue) else .ok portValue

/-- The configuration checks of `main`, in their order. -/
def checkSettings (sections : Sections) : Except Invalid Settings := do
  let port ← checkPort sections
  let sessionMaxCount := getInt sections server
    (text ['s','e','s','s','i','o','n','_','m','a','x','_','c','o','u','n','t']) 0
  let workerThreadCount := getInt sections server
    (text ['w','o','r','k','_','t','h','r','e','a','d','_','c','o','u','n','t']) 0
  if sessionMaxCount ≤ 0 then .error (.sessionMaxCount sessionMaxCount)
  else if workerThreadCount ≤ 0 then .error (.workerThreadCount workerThreadCount)
  else .ok ⟨port,sessionMaxCount,workerThreadCount⟩

/-- The server goes on with the configured port only, and refuses every setting that is no port, as
the client does. -/
structure PortSafe (sections : Sections) : Prop where
  accepted : ∀ port, checkPort sections=.ok port →
    1 ≤ portSetting sections ∧ portSetting sections ≤ 65535 ∧ port=portSetting sections
  refused : ¬(1 ≤ portSetting sections ∧ portSetting sections ≤ 65535) →
    (∃ e, checkPort sections=.error e) ∧
      ∀ (W : Type) (utf8ToWString : Text → List W) loadTest,
        ClientConfig.load utf8ToWString sections loadTest=none

/-- Whatever is configured, the check sees a `uint16`: it refuses zero only. -/
theorem checkPort_eq (sections : Sections) :
    checkPort sections=
      if portSetting sections%65536=0 then .error (.port 0)
      else .ok (portSetting sections%65536) := by
  have hword : uint16 (portSetting sections)=portSetting sections%65536 := rfl
  have hlo := Int.emod_nonneg (portSetting sections) (show (65536 : Int)≠0 by decide)
  have hhi := Int.emod_lt_of_pos (portSetting sections) (show (0 : Int)<65536 by decide)
  unfold checkPort
  rw [hword]
  by_cases hzero : portSetting sections%65536=0
  · rw [if_pos hzero,hzero]
    rfl
  · rw [if_neg hzero]
    exact if_neg (by omega)

/-- What `main` goes on with: a port other than zero, and counts that are positive. -/
theorem checkSettings_ok {sections : Sections} {s : Settings} (h : checkSettings sections=.ok s) :
    checkPort sections=.ok s.port ∧ 1 ≤ s.port ∧ s.port ≤ 65535 ∧ 1 ≤ s.sessionMaxCount ∧
      1 ≤ s.workerThreadCount := by
  unfold checkSettings at h
  cases hport : checkPort sections with
  | error e =>
    rw [hport] at h
    cases h
  | ok port =>
    rw [hport] at h
    simp only [bind,Except.bind] at h
    split at h
    · cases h
    split at h
    · cases h
    cases h
    have hrange := hport
    rw [checkPort_eq] at hrange
    split at hrange <;> cases hrange
    refine ⟨rfl,?_,?_,?_,?_⟩
    all_goals
      simp only
      omega

/-- The client refuses what is no port, whatever the text. -/
theorem load_none_of_no_port {W : Type} {utf8ToWString : Text → List W} {sections : Sections}
    (h : ¬(1 ≤ portSetting sections ∧ portSetting sections ≤ 65535)) (loadTest : Bool) :
    ClientConfig.load utf8ToWString sections loadTest=none := by
  apply ClientConfig.load_none
  cases hread : readRange sections server portKey 1 65535 0 with
  | none => rfl
  | some value =>
    obtain ⟨hchecked,hlo,hhi⟩ := readRange_some hread
    have hvalue : portSetting sections=value := getInt_of_checked hchecked
    rw [hvalue] at h
    exact absurd ⟨hlo,hhi⟩ h

/-- Exactly the settings that are a port or that the conversion makes zero are treated right. -/
theorem port_safe_iff (content : Text) :
    PortSafe (load content) ↔
      (1 ≤ portSetting (load content) ∧ portSetting (load content) ≤ 65535) ∨
        portSetting (load content)%65536=0 := by
  have hcheck := checkPort_eq (load content)
  constructor
  · intro hsafe
    by_cases hzero : portSetting (load content)%65536=0
    · exact Or.inr hzero
    · rw [if_neg hzero] at hcheck
      obtain ⟨hlo,hhi,-⟩ := hsafe.accepted _ hcheck
      exact Or.inl ⟨hlo,hhi⟩
  · intro hsetting
    refine ⟨fun port hport => ?_,fun hno => ⟨?_,fun _ _ => load_none_of_no_port hno⟩⟩
    · rw [hcheck] at hport
      split at hport
      · cases hport
      · cases hport
        omega
    · have hzero := hsetting.resolve_left hno
      rw [if_pos hzero] at hcheck
      exact ⟨_,hcheck⟩

/-- A file that configures port 73313. -/
def wrappedPort : Text :=
  text ['[','s','e','r','v','e','r',']','\n','p','o','r','t','=','7','3','3','1','3','\n']

/-- The server goes on with port 7777. -/
theorem wrapped_port_accepted :
    portSetting (load wrappedPort)=73313 ∧ checkPort (load wrappedPort)=.ok 7777 ∧
      ¬PortSafe (load wrappedPort) := by
  have hsetting : portSetting (load wrappedPort)=73313 := by decide +kernel
  have hcheck : checkPort (load wrappedPort)=.ok 7777 := by
    rw [checkPort_eq,hsetting]
    rfl
  refine ⟨hsetting,hcheck,fun hsafe => ?_⟩
  have hport := hsafe.accepted 7777 hcheck
  rw [hsetting] at hport
  omega

end IocpServer.Config

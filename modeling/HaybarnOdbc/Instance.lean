import HaybarnOdbc.Lib.Run
import HaybarnOdbc.SessionInit

/-!
# The instances of a database

Connection attempts to one named database, step by step : `GetOrCreateInstance` of the
instance cache, the database part and the connection part of `SessionInit::Run`. The steps of
attempts on different connections come in any order, and a connection that failed can be tried
again.

`SetConnection` runs the database part when it created the instance, and only then. The instance
lives on in the environment (`env->db`) when the part fails, and the cache hands it out while
the part still runs; an attempt that gets it so succeeds without the part. That no attempt ever
gets such an instance is what it takes (`connected_initialised`).
-/

namespace HaybarnOdbc.Instance

open SessionInit

/-- How far the attempt on a connection has come. -/
inductive Phase
  /-- No attempt is under way, the connection is not connected. -/
  | idle
  /-- It has an instance, which it created or not (`db_created`). -/
  | opened (dbCreated : Bool)
  /-- The database part is behind it. -/
  | dbInitDone
  /-- It returned success. -/
  | connected
  deriving DecidableEq, Repr

/-- A connection : its environment, the instance of `dbc->conn`, and its attempt. -/
structure Dbc where
  env : ℕ
  conn : Option ℕ
  phase : Phase
  deriving DecidableEq, Repr

/-- The instances of the database, by the order they were created in, with how often the
database part completed on each; the one in the cache; what the environments refer to; and the
connections. -/
structure State where
  completed : List ℕ
  cached : Option ℕ
  envs : List (Option ℕ)
  dbcs : List Dbc
  deriving DecidableEq, Repr

/-- A step of an attempt, the end of a connection, or an environment that lets go of its
instance (it is freed, or a connection of it opens another database). What the session answers
to the statements of a part may differ from step to step. -/
inductive Action
  | getOrCreateInstance (d : ℕ)
  | runDbInit (d : ℕ) (w : Session)
  | runConnInit (d : ℕ) (w : Session)
  | disconnect (d : ℕ)
  | releaseEnv (e : ℕ)

namespace State

variable (s : State)

/-- Some environment or connection refers to the instance. -/
def Live (i : ℕ) : Prop := some i ∈ s.envs ∨ some i ∈ s.dbcs.map Dbc.conn

/-- `dbc->conn` and the attempt of a connection change. -/
def setDbc (d : ℕ) (c : Dbc) (conn : Option ℕ) (phase : Phase) : State :=
  { s with dbcs := s.dbcs.set d { c with conn := conn, phase := phase } }

/-- `dbc->env->db = ...`. -/
def setEnv (e : ℕ) (i : Option ℕ) : State := { s with envs := s.envs.set e i }

/-- A new instance in the cache. -/
def create : State := { s with completed := s.completed ++ [0], cached := some s.completed.length }

/-- The database part completed on the instance. -/
def complete (i : ℕ) : State := { s with completed := s.completed.modify i (· + 1) }

end State

/-- The database part is to be run. -/
def wantsDbInit (f : SqlFile) (dbCreated : Bool) : Bool := dbCreated && !f.dbInitSql.isEmpty

/-- The steps. The driver manager lets no attempt start on a connection that is connected. -/
inductive Step (f : SqlFile) : State → Action → State → Prop
  /-- The cache has an instance that is alive. -/
  | join {s : State} {d i : ℕ} {c : Dbc} (hd : s.dbcs[d]? = some c) (hidle : c.phase = .idle)
      (hcached : s.cached = some i) (hlive : s.Live i) :
      Step f s (.getOrCreateInstance d)
        ((s.setEnv c.env (some i)).setDbc d c (some i) (.opened false))
  /-- The cache has none, and `on_create` sets the flag. -/
  | create {s : State} {d : ℕ} {c : Dbc} (hd : s.dbcs[d]? = some c) (hidle : c.phase = .idle)
      (hdead : ∀ i, s.cached = some i → ¬s.Live i) :
      Step f s (.getOrCreateInstance d)
        ((s.create.setEnv c.env (some s.completed.length)).setDbc d c
        (some s.completed.length) (.opened true))
  /-- An exception : the file or an option is refused, or the database cannot be opened. -/
  | refuse {s : State} {d : ℕ} {c : Dbc} (hd : s.dbcs[d]? = some c) (hidle : c.phase = .idle) :
      Step f s (.getOrCreateInstance d) s
  | dbInit {s : State} {d i : ℕ} {c : Dbc} {w : Session} {dbCreated : Bool}
      (hd : s.dbcs[d]? = some c) (hphase : c.phase = .opened dbCreated) (hconn : c.conn = some i)
      (hret : (runPart w (wantsDbInit f dbCreated) f.dbInitSql).ret.succeeded = true) :
      Step f s (.runDbInit d w) ((if wantsDbInit f dbCreated then s.complete i else s).setDbc d c
        (some i) .dbInitDone)
  /-- `dbc->conn.reset()`. The environment keeps the instance. -/
  | dbInitFails {s : State} {d : ℕ} {c : Dbc} {w : Session} {dbCreated : Bool}
      (hd : s.dbcs[d]? = some c) (hphase : c.phase = .opened dbCreated)
      (hret : (runPart w (wantsDbInit f dbCreated) f.dbInitSql).ret.succeeded = false) :
      Step f s (.runDbInit d w) (s.setDbc d c none .idle)
  | connInit {s : State} {d i : ℕ} {c : Dbc} {w : Session} (hd : s.dbcs[d]? = some c)
      (hphase : c.phase = .dbInitDone) (hconn : c.conn = some i)
      (hret : (runPart w (!f.connInitSql.isEmpty) f.connInitSql).ret.succeeded = true) :
      Step f s (.runConnInit d w) (s.setDbc d c (some i) .connected)
  | connInitFails {s : State} {d : ℕ} {c : Dbc} {w : Session} (hd : s.dbcs[d]? = some c)
      (hphase : c.phase = .dbInitDone)
      (hret : (runPart w (!f.connInitSql.isEmpty) f.connInitSql).ret.succeeded = false) :
      Step f s (.runConnInit d w) (s.setDbc d c none .idle)
  | disconnect {s : State} {d : ℕ} {c : Dbc} (hd : s.dbcs[d]? = some c)
      (hphase : c.phase = .connected) : Step f s (.disconnect d) (s.setDbc d c none .idle)
  | releaseEnv {s : State} {e : ℕ} : Step f s (.releaseEnv e) (s.setEnv e none)

/-- Before the first attempt. -/
def start (envs : ℕ) (dbcEnvs : List ℕ) : State :=
  ⟨[], none, List.replicate envs none, dbcEnvs.map fun e => ⟨e, none, .idle⟩⟩

/-! ## What the steps keep -/

/-- The database part runs at most once on an instance : the connection that created it is the
only one to run it, and has not done so yet while it is at it. -/
structure OnceEach (s : State) : Prop where
  atMost : ∀ n ∈ s.completed, n ≤ 1
  known : ∀ c ∈ s.dbcs, ∀ i, c.conn = some i → i < s.completed.length
  cached : ∀ i, s.cached = some i → i < s.completed.length
  fresh : ∀ c ∈ s.dbcs, ∀ i, c.phase = .opened true → c.conn = some i → s.completed[i]? = some 0
  creator : ∀ (d d' i : ℕ) (c c' : Dbc), s.dbcs[d]? = some c → s.dbcs[d']? = some c' →
    c.phase = .opened true → c'.phase = .opened true → c.conn = some i → c'.conn = some i → d = d'

section Once

variable {f : SqlFile} {s : State} {d i : ℕ} {c : Dbc}

/-- An environment that is set changes no initialisation. -/
theorem OnceEach.setEnv (h : OnceEach s) (e : ℕ) (i : Option ℕ) : OnceEach (s.setEnv e i) :=
  ⟨h.atMost, h.known, h.cached, h.fresh, h.creator⟩

/-- A connection that does not become the creator of an instance. -/
theorem OnceEach.setDbc (h : OnceEach s) {conn : Option ℕ} {phase : Phase}
    (hconn : ∀ i, conn = some i → i < s.completed.length) (hphase : phase ≠ .opened true) :
    OnceEach (s.setDbc d c conn phase) where
  atMost := h.atMost
  known c' hc' := by
    rcases List.mem_or_eq_of_mem_set hc' with hc' | rfl
    · exact h.known c' hc'
    · exact hconn
  cached := h.cached
  fresh c' hc' i hopened := by
    rcases List.mem_or_eq_of_mem_set hc' with hc' | rfl
    · exact h.fresh c' hc' i hopened
    · exact absurd hopened hphase
  creator d₁ d₂ i c₁ c₂ h₁ h₂ ho₁ ho₂ := by
    simp only [State.setDbc, List.getElem?_set] at h₁ h₂
    split_ifs at h₁ with hd₁ hlt₁
    · cases h₁
      exact absurd ho₁ hphase
    · split_ifs at h₂ with hd₂ hlt₂
      · cases h₂
        exact absurd ho₂ hphase
      · exact h.creator d₁ d₂ i c₁ c₂ h₁ h₂ ho₁ ho₂

/-- The creator of a new instance. -/
theorem OnceEach.create (h : OnceEach s) :
    OnceEach (s.create.setDbc d c (some s.completed.length) (.opened true)) where
  atMost n hn := by
    rcases List.mem_append.1 hn with hn | hn
    · exact h.atMost n hn
    · rw [List.mem_singleton.1 hn]
      exact Nat.zero_le 1
  known c' hc' i hi := by
    simp only [State.setDbc, State.create, List.length_append, List.length_singleton]
    rcases List.mem_or_eq_of_mem_set hc' with hc' | rfl
    · have hlt := h.known c' hc' i hi
      omega
    · cases hi
      omega
  cached i hi := by
    cases hi
    simp [State.setDbc, State.create]
  fresh c' hc' i hopened hi := by
    simp only [State.setDbc, State.create]
    rcases List.mem_or_eq_of_mem_set hc' with hc' | rfl
    · rw [List.getElem?_append_left (h.known c' hc' i hi)]
      exact h.fresh c' hc' i hopened hi
    · cases hi
      simp
  creator d₁ d₂ i c₁ c₂ h₁ h₂ ho₁ ho₂ hi₁ hi₂ := by
    -- no other connection refers to the new instance
    have hold : ∀ (d' : ℕ) (c' : Dbc), s.dbcs[d']? = some c' →
        c'.conn ≠ some s.completed.length := by
      intro d' c' hd' hi
      exact absurd (h.known c' (List.mem_of_getElem? hd') _ hi) (Nat.lt_irrefl _)
    simp only [State.setDbc, State.create, List.getElem?_set] at h₁ h₂
    split_ifs at h₁ with hd₁ hlt₁ <;> split_ifs at h₂ with hd₂
    · exact hd₁.symm.trans hd₂
    · cases h₁
      cases hi₁
      exact absurd hi₂ (hold d₂ c₂ h₂)
    · cases h₂
      cases hi₂
      exact absurd hi₁ (hold d₁ c₁ h₁)
    · exact h.creator d₁ d₂ i c₁ c₂ h₁ h₂ ho₁ ho₂ hi₁ hi₂

/-- The creator of the instance completes the database part. -/
theorem OnceEach.complete (h : OnceEach s) (hd : s.dbcs[d]? = some c)
    (hphase : c.phase = .opened true) (hconn : c.conn = some i) :
    OnceEach ((s.complete i).setDbc d c (some i) .dbInitDone) where
  atMost n hn := by
    have hfresh := h.fresh c (List.mem_of_getElem? hd) i hphase hconn
    obtain ⟨j, hj⟩ := List.mem_iff_getElem?.1 hn
    simp only [State.setDbc, State.complete, List.getElem?_modify] at hj
    obtain ⟨m, hm, rfl⟩ := Option.map_eq_some_iff.1 hj
    split_ifs with hij
    · subst hij
      rw [hfresh] at hm
      cases hm
      exact Nat.le_refl 1
    · exact h.atMost m (List.mem_of_getElem? hm)
  known c' hc' i' hi' := by
    simp only [State.setDbc, State.complete, List.length_modify]
    rcases List.mem_or_eq_of_mem_set hc' with hc' | rfl
    · exact h.known c' hc' i' hi'
    · cases hi'
      exact h.known c (List.mem_of_getElem? hd) i hconn
  cached j hj := by
    simp only [State.setDbc, State.complete, List.length_modify]
    exact h.cached j hj
  fresh c' hc' i' hopened hi' := by
    obtain ⟨d', hd'⟩ := List.mem_iff_getElem?.1 hc'
    simp only [State.setDbc, State.complete, List.getElem?_set] at hd' ⊢
    split_ifs at hd' with hdd hlt
    · cases hd'
      cases hopened
    · have hne : i' ≠ i := by
        rintro rfl
        exact hdd (h.creator d d' i' c c' hd hd' hphase hopened hconn hi')
      rw [List.getElem?_modify_ne _ _ hne.symm]
      exact h.fresh c' (List.mem_of_getElem? hd') i' hopened hi'
  creator d₁ d₂ i' c₁ c₂ h₁ h₂ ho₁ ho₂ := by
    simp only [State.setDbc, State.complete, List.getElem?_set] at h₁ h₂
    split_ifs at h₁ with hd₁ hlt₁
    · cases h₁
      cases ho₁
    · split_ifs at h₂ with hd₂ hlt₂
      · cases h₂
        cases ho₂
      · exact h.creator d₁ d₂ i' c₁ c₂ h₁ h₂ ho₁ ho₂

/-- Every step keeps it. -/
theorem onceEach_step {a : Action} {s' : State} (h : OnceEach s) (hstep : Step f s a s') :
    OnceEach s' := by
  have hnone : ∀ i, (none : Option ℕ) = some i → i < s.completed.length := nofun
  cases hstep with
  | @join d i c hd hidle hcached hlive =>
    refine (h.setEnv _ _).setDbc ?_ nofun
    rintro _ ⟨⟩
    exact h.cached i hcached
  | create hd hidle hdead => exact h.create.setEnv _ _
  | refuse => exact h
  | @dbInit d i c w dbCreated hd hphase hconn hret =>
    have hknown : ∀ j, some i = some j → j < s.completed.length := by
      rintro _ ⟨⟩
      exact h.known c (List.mem_of_getElem? hd) i hconn
    cases hwants : wantsDbInit f dbCreated with
    | false => exact h.setDbc hknown nofun
    | true =>
      obtain rfl : dbCreated = true := by simp_all [wantsDbInit]
      exact h.complete hd hphase hconn
  | dbInitFails => exact h.setDbc hnone nofun
  | @connInit d i c w hd hphase hconn hret =>
    refine h.setDbc ?_ nofun
    rintro _ ⟨⟩
    exact h.known c (List.mem_of_getElem? hd) i hconn
  | connInitFails => exact h.setDbc hnone nofun
  | disconnect => exact h.setDbc hnone nofun
  | releaseEnv => exact h.setEnv _ _

end Once

/-- The database part has completed on the instance, if the file has one. -/
def Initialised (f : SqlFile) (s : State) (i : ℕ) : Prop :=
  f.dbInitSql ≠ [] → ∃ n, s.completed[i]? = some n ∧ 1 ≤ n

/-- The instance that `GetOrCreateInstance` finds alive in the cache has been initialised. -/
def FindsInitialised (f : SqlFile) (s : State) (a : Action) : Prop :=
  ∀ d i, a = .getOrCreateInstance d → s.cached = some i → s.Live i → Initialised f s i

/-- Only the connection that is to run the database part has an instance without it. -/
def AllInitialised (f : SqlFile) (s : State) : Prop :=
  ∀ c ∈ s.dbcs, ∀ i, c.phase ≠ .opened true → c.conn = some i → Initialised f s i

section Initialised

variable {f : SqlFile} {s : State} {d i : ℕ} {c : Dbc}

/-- What completes on an instance stays completed. -/
theorem Initialised.complete (h : Initialised f s i) (j : ℕ) : Initialised f (s.complete j) i := by
  intro hne
  obtain ⟨n, hn, hle⟩ := h hne
  refine ⟨if j = i then n + 1 else n, ?_, ?_⟩
  · rw [State.complete, List.getElem?_modify, hn]
    rfl
  · split_ifs <;> omega

/-- An instance that was initialised stays so when another one is created. -/
theorem Initialised.create (h : Initialised f s i) : Initialised f s.create i := by
  intro hne
  obtain ⟨n, hn, hle⟩ := h hne
  exact ⟨n, List.getElem?_append_left (List.getElem?_eq_some_iff.1 hn).1 ▸ hn, hle⟩

/-- A connection changes. Its new instance has been initialised, or it is to do that. -/
theorem AllInitialised.setDbc (h : AllInitialised f s) {conn : Option ℕ} {phase : Phase}
    (hconn : ∀ i, phase ≠ .opened true → conn = some i → Initialised f s i) :
    AllInitialised f (s.setDbc d c conn phase) := by
  intro c' hc' i hphase hi
  rcases List.mem_or_eq_of_mem_set hc' with hc' | rfl
  · exact h c' hc' i hphase hi
  · exact hconn i hphase hi

/-- Every step keeps it, if the instance it finds has been initialised. -/
theorem allInitialised_step {a : Action} {s' : State} (honce : OnceEach s)
    (h : AllInitialised f s) (hfinds : FindsInitialised f s a) (hstep : Step f s a s') :
    AllInitialised f s' := by
  have hnone : ∀ (phase : Phase) (i : ℕ), phase ≠ .opened true → (none : Option ℕ) = some i →
      Initialised f s i := nofun
  cases hstep with
  | @join d i c hd hidle hcached hlive =>
    refine AllInitialised.setDbc (s := s.setEnv c.env (some i)) h ?_
    rintro _ - ⟨⟩
    exact hfinds d i rfl hcached hlive
  | create hd hidle hdead =>
    refine AllInitialised.setDbc (s := s.create.setEnv _ _) ?_ (fun _ hphase => absurd rfl hphase)
    intro c' hc' i hphase hi
    exact (h c' hc' i hphase hi).create
  | refuse => exact h
  | @dbInit d i c w dbCreated hd hphase hconn hret =>
    have hc := List.mem_of_getElem? hd
    cases hwants : wantsDbInit f dbCreated with
    | false =>
      refine h.setDbc ?_
      rintro _ - ⟨⟩
      cases dbCreated with
      | false => exact h c hc i (by simp [hphase]) hconn
      | true =>
        intro hne
        simp [wantsDbInit, hne] at hwants
    | true =>
      have hall : AllInitialised f (s.complete i) := fun c' hc' j hphase' hj =>
        (h c' hc' j hphase' hj).complete i
      refine hall.setDbc ?_
      rintro _ - ⟨⟩ -
      have hlt := honce.known c hc i hconn
      exact ⟨s.completed[i] + 1, by simp [State.complete, List.getElem?_eq_getElem hlt],
        Nat.le_add_left 1 _⟩
  | dbInitFails => exact h.setDbc (hnone _)
  | @connInit d i c w hd hphase hconn hret =>
    refine h.setDbc ?_
    rintro _ - ⟨⟩
    exact h c (List.mem_of_getElem? hd) i (by simp [hphase]) hconn
  | connInitFails => exact h.setDbc (hnone _)
  | disconnect => exact h.setDbc (hnone _)
  | releaseEnv => exact h

end Initialised

/-- At the start nothing was initialised. -/
theorem onceEach_start (envs : ℕ) (dbcEnvs : List ℕ) : OnceEach (start envs dbcEnvs) := by
  have hnone : ∀ c ∈ (start envs dbcEnvs).dbcs, c.conn = none := by simp [start]
  constructor
  · simp [start]
  · intro c hc i hi
    simp [hnone c hc] at hi
  · nofun
  · intro c hc i _ hi
    simp [hnone c hc] at hi
  · intro d d' i c c' hd hd' _ _ hi
    simp [hnone c (List.mem_of_getElem? hd)] at hi

/-- As long as no attempt finds an instance that has not been initialised : whoever is
connected is connected to one on which the database part completed, and it completed at most
once on each. -/
theorem connected_initialised (f : SqlFile) (envs : ℕ) (dbcEnvs : List ℕ) {actions : List Action}
    {s : State} (hreaches : Run.Reaches (Step f) (start envs dbcEnvs) actions s)
    (hfinds : Run.Along (Step f) (FindsInitialised f) (start envs dbcEnvs) actions) :
    (∀ c ∈ s.dbcs, ∀ i, c.phase = .connected → c.conn = some i → f.dbInitSql ≠ [] →
      ∃ n, s.completed[i]? = some n ∧ 1 ≤ n) ∧ ∀ n ∈ s.completed, n ≤ 1 := by
  have hstart : AllInitialised f (start envs dbcEnvs) := by
    intro c hc i _ hi
    have hconn : c.conn = none := by
      simp only [start, List.mem_map] at hc
      obtain ⟨e, -, rfl⟩ := hc
      rfl
    simp [hconn] at hi
  have hkeeps : ∀ s a t, OnceEach s ∧ AllInitialised f s → FindsInitialised f s a → Step f s a t →
      OnceEach t ∧ AllInitialised f t := fun s a t h hP hstep =>
    ⟨onceEach_step h.1 hstep, allInitialised_step h.1 h.2 hP hstep⟩
  obtain ⟨honce, hall⟩ :=
    Run.Reaches.invariant _ hkeeps ⟨onceEach_start envs dbcEnvs, hstart⟩ hfinds hreaches
  exact ⟨fun c hc i hphase hi => hall c hc i (by simp [hphase]) hi, honce.atMost⟩

/-- A session that refuses every statement. -/
def refusing : Session := ⟨.success, fun _ => (.error, "no such table")⟩

/-- A file whose database part is one statement. -/
def dbOnly : SqlFile := ⟨"INSERT INTO tab1 VALUES (1)".toList, [], []⟩

/-- The first attempt creates the instance, completes the part and is connected. -/
theorem connected_initialised_first :
    ∃ s, Run.Reaches (Step dbOnly) (start 1 [0])
        [.getOrCreateInstance 0, .runDbInit 0 obliging, .runConnInit 0 obliging] s ∧
      (∀ c ∈ s.dbcs, ∀ i, c.phase = .connected → c.conn = some i → dbOnly.dbInitSql ≠ [] →
        ∃ n, s.completed[i]? = some n ∧ 1 ≤ n) ∧ ∀ n ∈ s.completed, n ≤ 1 := by
  have hreaches : Run.Reaches (Step dbOnly) (start 1 [0])
      [.getOrCreateInstance 0, .runDbInit 0 obliging, .runConnInit 0 obliging]
      ⟨[1], some 0, [some 0], [⟨0, some 0, .connected⟩]⟩ :=
    ⟨_, .create (c := ⟨0, none, .idle⟩) rfl rfl nofun, _, .dbInit (i := 0) rfl rfl rfl rfl, _,
      .connInit (i := 0) rfl rfl rfl rfl, rfl⟩
  refine ⟨_, hreaches, connected_initialised dbOnly 1 [0] hreaches ?_⟩
  -- only the first step asks for an instance, and the cache has none then
  refine ⟨fun _ _ _ hcached => (nomatch hcached), fun t _ => ⟨nofun, fun t _ => ⟨nofun, ?_⟩⟩⟩
  exact fun _ _ => trivial

/-- The database part fails on a new instance, and a second attempt finds the instance in the
cache : it is connected, and the part never completed. -/
theorem retry_skips_database_part :
    ∃ s, Run.Reaches (Step dbOnly) (start 1 [0])
        [.getOrCreateInstance 0, .runDbInit 0 refusing, .getOrCreateInstance 0,
          .runDbInit 0 obliging, .runConnInit 0 obliging] s ∧
      ¬∀ c ∈ s.dbcs, ∀ i, c.phase = .connected → c.conn = some i → dbOnly.dbInitSql ≠ [] →
        ∃ n, s.completed[i]? = some n ∧ 1 ≤ n := by
  refine ⟨⟨[0], some 0, [some 0], [⟨0, some 0, .connected⟩]⟩, ⟨_,
    .create (c := ⟨0, none, .idle⟩) rfl rfl nofun, _, .dbInitFails rfl rfl rfl, _,
    .join (i := 0) (c := ⟨0, none, .idle⟩) rfl rfl rfl (.inl (.head _)), _,
    .dbInit (i := 0) rfl rfl rfl rfl, _, .connInit (i := 0) rfl rfl rfl rfl, rfl⟩, ?_⟩
  intro h
  obtain ⟨n, hn, hle⟩ := h _ (.head _) 0 rfl rfl (by decide)
  cases hn
  exact absurd hle (by decide)

end HaybarnOdbc.Instance

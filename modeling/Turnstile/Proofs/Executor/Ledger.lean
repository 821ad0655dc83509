import Turnstile.Executor
import Turnstile.Proofs.Standing

/-!
# The ledger of an executor

A run is known to one gate or to the pool, under its own ticket, and has come
exactly as far as it was let in there.  While a permit changes hands the runs may
lag behind, until they are told.
-/

namespace Turnstile

/-- Where a run asks to be let in: at the gate of a category, or at the pool. -/
def Run.place (run : Run) : Option Category :=
  if run.pooled then none else some run.category

namespace RunStage

/-- A run has come as far as it was let in. -/
inductive Fits : RunStage → Standing → Prop where
  | waiting : Fits .waiting .waiting
  | admitted {request : Request} : Fits (.admitted request) .holding
  | active : Fits .active .holding
  | ended {outcome : Outcome} {standing : Standing} (out : standing.IsOut) :
      Fits (.ended outcome) standing
  | cancelled {standing : Standing} (out : standing.IsOut) : Fits .cancelled standing

/-- A run has come as far as it was let in, or has not been told. -/
def Lags (stage : RunStage) (standing : Standing) : Prop :=
  stage.Fits standing ∨ stage = .waiting ∧ (standing = .holding ∨ standing = .refused)

theorem Lags.standing_of_waiting {standing : Standing} (lags : Lags .waiting standing) :
    standing = .waiting ∨ standing = .holding ∨ standing = .refused := by
  rcases lags with fits | ⟨_, told⟩
  · cases fits
    exact .inl rfl
  · exact .inr told

/-- A run that is started holds what it was let in with. -/
theorem Fits.active_of_admitted {request : Request} {standing : Standing}
    (fits : (RunStage.admitted request).Fits standing) : RunStage.active.Fits standing := by
  cases fits
  exact .active

/-- A run that does nothing lags behind at most. -/
theorem Fits.lags {stage : RunStage} {standing later : Standing} (fits : stage.Fits standing)
    (advances : standing.Advances later) : stage.Lags later := by
  cases advances with
  | stays => exact .inl fits
  | served =>
      cases fits with
      | waiting => exact .inr ⟨rfl, .inl rfl⟩
      | ended out => exact absurd rfl out.1
      | cancelled out => exact absurd rfl out.1
  | sentAway =>
      cases fits with
      | waiting => exact .inr ⟨rfl, .inr rfl⟩
      | ended out => exact absurd rfl out.1
      | cancelled out => exact absurd rfl out.1

end RunStage

namespace Executor

/-- How a ticket stands at a place. -/
def standing (executor : Executor) : Option Category → Ticket → Standing
  | none, ticket => executor.pool.standing ticket
  | some category, ticket => (executor.gates category).standing ticket

/-- How many callers an executor serves at once. -/
structure Capacities where
  /-- The permits of each gate. -/
  permits : Category → Nat
  /-- The servers of the pool. -/
  servers : Nat

/-- The gates, the pool and the runs of an executor agree. -/
structure Ledger (capacities : Capacities) (fits : RunStage → Standing → Prop)
    (executor : Executor) : Prop where
  gates : ∀ category, (executor.gates category).Consistent
  pool : executor.pool.Consistent
  permits : ∀ category, (executor.gates category).capacity = capacities.permits category
  servers : executor.pool.size = capacities.servers
  fresh : ∀ place ticket, executor.issued ≤ ticket → executor.standing place ticket = .absent
  names : executor.runs.names.Nodup
  issued : ∀ {ticket run}, executor.run? ticket = some run → ticket < executor.issued
  /-- A run asks at its own place only. -/
  alone : ∀ {ticket run place}, executor.run? ticket = some run → place ≠ run.place →
    executor.standing place ticket = .absent
  fits : ∀ {ticket run}, executor.run? ticket = some run →
    fits run.stage (executor.standing run.place ticket)
  /-- Runs are sent to the pool only if it has a server. -/
  served : ∀ {ticket run}, executor.run? ticket = some run → run.pooled = true →
    0 < capacities.servers

/-- Every run has come as far as it was let in. -/
abbrev Settled (capacities : Capacities) (executor : Executor) : Prop :=
  executor.Ledger capacities RunStage.Fits

/-- Some runs have not been told that they were let in, or sent away. -/
abbrev Unsettled (capacities : Capacities) (executor : Executor) : Prop :=
  executor.Ledger capacities RunStage.Lags

variable {capacities : Capacities} {executor : Executor}

/-! ## Telling the runs -/

theorem run?_refresh (executor : Executor) (ticket : Ticket) :
    executor.refresh.run? ticket = (executor.run? ticket).map (executor.advanced ticket) :=
  Claims.get?_map_entries executor.runs executor.advanced ticket

theorem names_refresh (executor : Executor) :
    Claims.names executor.refresh.runs = Claims.names executor.runs := by
  simp [refresh, Claims.names]

/-- A run that is told how it stands stays the same run at the same place. -/
structure Told (before later : Run) : Prop where
  category : later.category = before.category
  pooled : later.pooled = before.pooled
  supervision : later.supervision = before.supervision
  stage : before.stage ≠ .waiting → later = before

theorem told_advanced (executor : Executor) (ticket : Ticket) (run : Run) :
    Told run (executor.advanced ticket run) := by
  unfold advanced
  split
  · rename_i waiting
    split
    · split
      · exact ⟨rfl, rfl, rfl, fun other => absurd waiting other⟩
      · exact ⟨rfl, rfl, rfl, fun other => absurd waiting other⟩
      · exact ⟨rfl, rfl, rfl, fun _ => rfl⟩
    · split
      · exact ⟨rfl, rfl, rfl, fun other => absurd waiting other⟩
      · exact ⟨rfl, rfl, rfl, fun other => absurd waiting other⟩
      · exact ⟨rfl, rfl, rfl, fun _ => rfl⟩
  · exact ⟨rfl, rfl, rfl, fun _ => rfl⟩

theorem Told.place {before later : Run} (told : Told before later) :
    later.place = before.place := by
  rw [Run.place, Run.place, told.pooled, told.category]

/-- What a run that waits is told at the pool. -/
theorem fits_advanced_pool {ticket : Ticket} {run : Run} (waiting : run.stage = .waiting)
    (pooled : run.pooled = true)
    (told : executor.pool.standing ticket = .waiting ∨
      executor.pool.standing ticket = .holding ∨ executor.pool.standing ticket = .refused) :
    (executor.advanced ticket run).stage.Fits (executor.pool.standing ticket) := by
  simp only [advanced, waiting, pooled, if_true]
  unfold Pool.standing at told ⊢
  cases known : executor.pool.claims.get? ticket with
  | none => simp [known] at told
  | some claim =>
      cases claim with
      | waiting slot => exact waiting ▸ .waiting
      | leased slot isOpen =>
          cases isOpen with
          | true => exact .admitted
          | false => simp [known, PoolClaim.standing] at told
      | interrupted => exact .ended (by simp [Standing.IsOut, PoolClaim.standing])
      | placeholder => simp [known, PoolClaim.standing] at told
      | dropped => simp [known, PoolClaim.standing] at told
      | cancelled => simp [known, PoolClaim.standing] at told

/-- What a run that waits is told at its gate. -/
theorem fits_advanced_gate {ticket : Ticket} {run : Run} (waiting : run.stage = .waiting)
    (gated : run.pooled = false)
    (told : (executor.gates run.category).standing ticket = .waiting ∨
      (executor.gates run.category).standing ticket = .holding ∨
      (executor.gates run.category).standing ticket = .refused) :
    (executor.advanced ticket run).stage.Fits ((executor.gates run.category).standing ticket) := by
  simp only [advanced, waiting, gated, Bool.false_eq_true, if_false]
  unfold Gate.standing at told ⊢
  cases known : (executor.gates run.category).claims.get? ticket with
  | none => simp [known] at told
  | some claim =>
      cases claim with
      | waiting => exact waiting ▸ .waiting
      | held => exact .admitted
      | interrupted => exact .ended (by simp [Standing.IsOut, GateClaim.standing])
      | released => simp [known, GateClaim.standing] at told
      | cancelled => simp [known, GateClaim.standing] at told

/-- A run that lags behind has caught up once it is told. -/
theorem fits_advanced {ticket : Ticket} {run : Run}
    (lags : run.stage.Lags (executor.standing run.place ticket)) :
    (executor.advanced ticket run).stage.Fits (executor.standing run.place ticket) := by
  by_cases waiting : run.stage = .waiting
  · rw [waiting] at lags
    have told := lags.standing_of_waiting
    unfold Run.place at told ⊢
    cases pooled : run.pooled with
    | true =>
        rw [pooled, if_pos rfl] at told
        exact fits_advanced_pool waiting pooled told
    | false =>
        rw [pooled, if_neg nofun] at told
        exact fits_advanced_gate waiting pooled told
  · rw [(told_advanced executor ticket run).stage waiting]
    exact lags.resolve_right fun told => waiting told.1

/-- Once the runs are told, every run has come as far as it was let in. -/
theorem Ledger.refresh (unsettled : executor.Unsettled capacities) :
    executor.refresh.Settled capacities where
  gates := unsettled.gates
  pool := unsettled.pool
  permits := unsettled.permits
  servers := unsettled.servers
  fresh := unsettled.fresh
  names := by
    rw [names_refresh]
    exact unsettled.names
  issued {ticket later} known := by
    rw [run?_refresh, Option.map_eq_some_iff] at known
    obtain ⟨run, known, rfl⟩ := known
    exact unsettled.issued known
  alone {ticket later place} known other := by
    rw [run?_refresh, Option.map_eq_some_iff] at known
    obtain ⟨run, known, rfl⟩ := known
    rw [(told_advanced executor ticket run).place] at other
    exact unsettled.alone known other
  fits {ticket later} known := by
    rw [run?_refresh, Option.map_eq_some_iff] at known
    obtain ⟨run, known, rfl⟩ := known
    rw [(told_advanced executor ticket run).place]
    exact fits_advanced (unsettled.fits known)
  served {ticket later} known pooled := by
    rw [run?_refresh, Option.map_eq_some_iff] at known
    obtain ⟨run, known, rfl⟩ := known
    rw [(told_advanced executor ticket run).pooled] at pooled
    exact unsettled.served known pooled

/-! ## What changes hands -/

/--
The gates and the pool change, and the runs with them: nobody new comes in, and
whoever does nothing is let in or sent away at most.
-/
theorem Ledger.update (settled : executor.Settled capacities) {fits : RunStage → Standing → Prop}
    {after : Executor}
    (gates : ∀ category, (after.gates category).Consistent) (pool : after.pool.Consistent)
    (permits : ∀ category, (after.gates category).capacity = (executor.gates category).capacity)
    (servers : after.pool.size = executor.pool.size) (issued : executor.issued ≤ after.issued)
    (names : Claims.names after.runs = Claims.names executor.runs)
    (fresh : ∀ place ticket, executor.standing place ticket = .absent →
      after.issued ≤ ticket → after.standing place ticket = .absent)
    (runs : ∀ {ticket later}, after.run? ticket = some later →
      ∃ run, executor.run? ticket = some run ∧ later.place = run.place ∧
        later.pooled = run.pooled ∧
        (∀ place, place ≠ run.place →
          (executor.standing place ticket).Advances (after.standing place ticket)) ∧
        fits later.stage (after.standing run.place ticket)) : after.Ledger capacities fits where
  gates := gates
  pool := pool
  permits category := (permits category).trans (settled.permits category)
  servers := servers.trans settled.servers
  fresh place ticket late :=
    fresh place ticket (settled.fresh place ticket (Nat.le_trans issued late)) late
  names := names ▸ settled.names
  issued known := by
    obtain ⟨run, before, _⟩ := runs known
    exact Nat.lt_of_lt_of_le (settled.issued before) issued
  alone {ticket later place} known other := by
    obtain ⟨run, before, same, _, advances, _⟩ := runs known
    have elsewhere := settled.alone before (same ▸ other)
    have advances := advances place (same ▸ other)
    rw [elsewhere] at advances
    exact advances.absent
  fits known := by
    obtain ⟨run, before, same, _, _, agree⟩ := runs known
    exact same ▸ agree
  served known pooled := by
    obtain ⟨run, before, _, same, _⟩ := runs known
    exact settled.served before (same ▸ pooled)

/-- The gates and the pool change, and the runs do nothing. -/
theorem Ledger.advance (settled : executor.Settled capacities) {after : Executor}
    (gates : ∀ category, (after.gates category).Consistent) (pool : after.pool.Consistent)
    (permits : ∀ category, (after.gates category).capacity = (executor.gates category).capacity)
    (servers : after.pool.size = executor.pool.size) (runs : after.runs = executor.runs)
    (issued : after.issued = executor.issued)
    (fresh : ∀ {place ticket}, executor.standing place ticket = .absent →
      after.standing place ticket = .absent)
    (advances : ∀ {ticket run}, executor.run? ticket = some run → ∀ place,
      (executor.standing place ticket).Advances (after.standing place ticket)) :
    after.Unsettled capacities := by
  refine settled.update gates pool permits servers (Nat.le_of_eq issued.symm) (by rw [runs])
    (fun _ _ absent _ => fresh absent) fun {ticket run} known => ?_
  rw [run?, runs] at known
  exact ⟨run, known, rfl, rfl, fun place _ => advances known place,
    (settled.fits known).lags (advances known run.place)⟩

theorem run?_setRun (executor : Executor) (ticket other : Ticket) (run : Run) :
    (executor.setRun ticket run).run? other =
      if other = ticket then (executor.run? ticket).map fun _ => run else executor.run? other :=
  Claims.get?_set executor.runs ticket other run

theorem run?_setRun_cases {ticket other : Ticket} {run later found : Run}
    (known : executor.run? ticket = some run)
    (after : (executor.setRun ticket later).run? other = some found) :
    other = ticket ∧ found = later ∨ other ≠ ticket ∧ executor.run? other = some found := by
  rw [run?_setRun] at after
  split at after
  · rename_i same
    rw [known] at after
    cases after
    exact .inl ⟨same, rfl⟩
  · rename_i different
    exact .inr ⟨different, after⟩

/-- A run goes on, within what it was let in to. -/
theorem Ledger.setRun (settled : executor.Settled capacities) {ticket : Ticket} {run later : Run}
    (known : executor.run? ticket = some run) (place : later.place = run.place)
    (pooled : later.pooled = run.pooled)
    (fits : later.stage.Fits (executor.standing run.place ticket)) :
    (executor.setRun ticket later).Settled capacities := by
  refine settled.update settled.gates settled.pool (fun _ => rfl) rfl (Nat.le_refl _)
    (Claims.names_set _ _ _) (fun _ _ absent _ => absent) fun {other found} after => ?_
  rcases run?_setRun_cases known after with ⟨rfl, rfl⟩ | ⟨_, before⟩
  · exact ⟨run, known, place, pooled, fun _ _ => .stays, fits⟩
  · exact ⟨found, before, rfl, rfl, fun _ _ => .stays, settled.fits before⟩

/-! ## Leaving -/

theorem gates_setGate (executor : Executor) (category other : Category) (gate : Gate Ticket) :
    (executor.setGate category gate).gates other =
      if other = category then gate else executor.gates other :=
  rfl

/-- A ticket leaves a gate or the pool; the runs are not told. -/
def vacate (executor : Executor) (ticket : Ticket) : Option Category → Executor
  | none => { executor with pool := executor.pool.leave ticket }
  | some category => executor.setGate category ((executor.gates category).leave ticket)

theorem leave_setRun (executor : Executor) (ticket : Ticket) (run later : Run) :
    (executor.setRun ticket later).leave ticket run =
      ((executor.vacate ticket run.place).setRun ticket later).refresh := by
  unfold leave Run.place
  split <;> rfl

theorem gates_vacate (gates : ∀ category, (executor.gates category).Consistent) (ticket : Ticket)
    (place : Option Category) (category : Category) :
    ((executor.vacate ticket place).gates category).Consistent ∧
      ((executor.vacate ticket place).gates category).capacity =
        (executor.gates category).capacity := by
  cases place with
  | none => exact ⟨gates category, rfl⟩
  | some own =>
      rw [vacate, gates_setGate]
      split
      · rename_i same
        subst same
        exact ⟨(gates category).leave ticket, Gate.capacity_leave _ ticket⟩
      · exact ⟨gates category, rfl⟩

theorem pool_vacate (pool : executor.pool.Consistent) (ticket : Ticket) (place : Option Category) :
    (executor.vacate ticket place).pool.Consistent ∧
      (executor.vacate ticket place).pool.size = executor.pool.size := by
  cases place with
  | none =>
      have left := pool.step (.cancel ticket)
      have size := (left.size_step (.drop ticket)).trans (pool.size_step (.cancel ticket))
      exact ⟨left.step (.drop ticket), size⟩
  | some category => exact ⟨pool, rfl⟩

/-- Who leaves a place is out there, and everybody else stands as before or has been let in. -/
theorem standing_vacate (gates : ∀ category, (executor.gates category).Consistent)
    (pool : executor.pool.Consistent) (ticket : Ticket) (place : Option Category) :
    ((executor.vacate ticket place).standing place ticket).IsOut ∧
      ∀ other caller, other ≠ place ∨ caller ≠ ticket →
        (executor.standing other caller).Advances
          ((executor.vacate ticket place).standing other caller) := by
  cases place with
  | none =>
      obtain ⟨out, others⟩ := Pool.standing_leave pool ticket
      refine ⟨out, ?_⟩
      intro other caller apart
      cases other with
      | none => exact others caller (apart.resolve_left fun different => different rfl)
      | some category => exact .stays
  | some category =>
      obtain ⟨out, others⟩ := Gate.standing_leave (gates category) ticket
      have here (other : Category) : (executor.vacate ticket (some category)).gates other =
          if other = category then (executor.gates category).leave ticket
          else executor.gates other := rfl
      constructor
      · simpa [standing, here] using out
      · intro other caller apart
        cases other with
        | none => exact .stays
        | some other =>
            simp only [standing, here]
            split
            · rename_i same
              subst same
              exact others caller (apart.resolve_left fun different => different rfl)
            · exact .stays

theorem vacate_of_absent {ticket : Ticket} {place : Option Category}
    (absent : executor.standing place ticket = .absent) :
    executor.vacate ticket place = executor := by
  cases place with
  | none => rw [vacate, Pool.leave_of_absent absent]
  | some category =>
      rw [vacate, Gate.leave_of_absent absent, setGate]
      congr 1
      funext other
      split
      · rename_i same
        rw [same]
      · rfl

/-- Nobody comes in while a ticket leaves its place. -/
theorem standing_vacate_of_absent (gates : ∀ category, (executor.gates category).Consistent)
    (pool : executor.pool.Consistent) (ticket : Ticket) (place : Option Category)
    {other : Option Category} {caller : Ticket}
    (absent : executor.standing other caller = .absent) :
    (executor.vacate ticket place).standing other caller = .absent := by
  by_cases own : other = place ∧ caller = ticket
  · obtain ⟨rfl, rfl⟩ := own
    rwa [vacate_of_absent absent]
  · have advances := (standing_vacate gates pool ticket place).2 other caller (not_and_or.mp own)
    rw [absent] at advances
    exact advances.absent

theorem run?_vacate (executor : Executor) (ticket other : Ticket) (place : Option Category) :
    (executor.vacate ticket place).run? other = executor.run? other := by
  cases place <;> rfl

/-- A direct ticket leaves its place. -/
theorem Ledger.vacate (settled : executor.Settled capacities) {ticket : Ticket}
    (direct : executor.run? ticket = none) (place : Option Category) :
    (executor.vacate ticket place).Unsettled capacities := by
  obtain ⟨_, others⟩ := standing_vacate settled.gates settled.pool ticket place
  have gates := gates_vacate settled.gates ticket place
  obtain ⟨pool, servers⟩ := pool_vacate settled.pool ticket place
  refine settled.advance (fun category => (gates category).1) pool
    (fun category => (gates category).2) servers
    (by cases place <;> rfl) (by cases place <;> rfl)
    (fun absent => standing_vacate_of_absent settled.gates settled.pool ticket place absent)
    fun {other run} known at_ => others at_ other (.inr ?_)
  rintro rfl
  rw [direct] at known
  cases known

/-- The caller of a direct lease gives its server back. -/
theorem Ledger.closeLease (settled : executor.Settled capacities) {ticket : Ticket}
    (direct : executor.run? ticket = none) :
    { executor with pool := executor.pool.closeLease ticket }.Unsettled capacities := by
  have apart {other : Ticket} (different : other ≠ ticket) :
      (executor.pool.standing other).Advances
        ((executor.pool.closeLease ticket).standing other) :=
    Pool.standing_closeLease settled.pool different
  refine settled.advance settled.gates (settled.pool.step (.closeLease ticket)) (fun _ => rfl)
    (settled.pool.size_step (.closeLease ticket)) rfl rfl (fun {place other} absent => ?_)
    fun {other run} known place => ?_
  · cases place with
    | some category => exact absent
    | none =>
        by_cases same : other = ticket
        · subst same
          have fresh := Pool.standing_eq_absent_iff.mp absent
          have idle : executor.pool.closeLease other = executor.pool :=
            Pool.closeLease_of_not_leased fun slot => by rw [fresh]; nofun
          change (executor.pool.closeLease other).standing other = .absent
          rwa [idle]
        · have advances := apart same
          rw [show executor.pool.standing other = .absent from absent] at advances
          exact advances.absent
  · cases place with
    | some category => exact .stays
    | none =>
        refine apart ?_
        rintro rfl
        rw [direct] at known
        cases known

/-- The gates and the pool close. -/
theorem Ledger.close (settled : executor.Settled capacities) :
    { executor with
      gates := fun category => (executor.gates category).close
      pool := executor.pool.close }.Unsettled capacities := by
  have advances (place : Option Category) (ticket : Ticket) :
      (executor.standing place ticket).Advances
        (standing { executor with
          gates := fun category => (executor.gates category).close
          pool := executor.pool.close } place ticket) := by
    cases place with
    | none => exact Pool.standing_close settled.pool
    | some category => exact Gate.standing_close (executor.gates category) ticket
  refine settled.advance (fun category => (settled.gates category).close) settled.pool.close
    (fun _ => rfl) (settled.pool.size_step .close) rfl rfl (fun {place ticket} absent => ?_)
    fun _ place => advances place _
  have stays := advances place ticket
  rw [absent] at stays
  exact stays.absent

/-- A run that is over leaves its place. -/
theorem Ledger.depart (settled : executor.Settled capacities) {ticket : Ticket} {run later : Run}
    (known : executor.run? ticket = some run) (place : later.place = run.place)
    (pooled : later.pooled = run.pooled)
    (finished : ∀ {standing : Standing}, standing.IsOut → later.stage.Fits standing) :
    ((executor.vacate ticket run.place).setRun ticket later).Unsettled capacities := by
  obtain ⟨out, others⟩ := standing_vacate settled.gates settled.pool ticket run.place
  have gates := gates_vacate settled.gates ticket run.place
  obtain ⟨pool, servers⟩ := pool_vacate settled.pool ticket run.place
  have names : Claims.names ((executor.vacate ticket run.place).setRun ticket later).runs =
      Claims.names executor.runs := by
    cases run.place <;> exact Claims.names_set _ _ _
  refine settled.update (fun category => (gates category).1) pool
    (fun category => (gates category).2) servers
    (by cases run.place <;> exact Nat.le_refl _) names
    (fun _ _ absent _ =>
      standing_vacate_of_absent settled.gates settled.pool ticket run.place absent)
    fun {other found} after => ?_
  rcases run?_setRun_cases ((run?_vacate executor ticket ticket run.place).trans known) after with
    ⟨rfl, rfl⟩ | ⟨apart, before⟩
  · exact ⟨run, known, place, pooled, fun at_ elsewhere => others at_ other (.inl elsewhere),
      .inl (finished out)⟩
  · rw [run?_vacate] at before
    exact ⟨found, before, rfl, rfl, fun at_ _ => others at_ other (.inr apart),
      (settled.fits before).lags (others found.place other (.inr apart))⟩

/-! ## Coming -/

theorem run?_issued (settled : executor.Settled capacities) :
    executor.run? executor.issued = none := by
  cases known : executor.run? executor.issued with
  | none => rfl
  | some run => exact absurd (settled.issued known) (Nat.lt_irrefl _)

/-- A new ticket asks at a place. -/
def arrive (executor : Executor) : Option Category → Executor
  | none => { executor with
      issued := executor.issued + 1, pool := executor.pool.acquire executor.issued }
  | some category =>
      { executor with issued := executor.issued + 1 }.setGate category
        ((executor.gates category).acquire executor.issued)

theorem run?_arrive (executor : Executor) (place : Option Category) (ticket : Ticket) :
    (executor.arrive place).run? ticket = executor.run? ticket := by
  cases place <;> rfl

theorem issued_arrive (executor : Executor) (place : Option Category) :
    (executor.arrive place).issued = executor.issued + 1 := by
  cases place <;> rfl

theorem gates_arrive (gates : ∀ category, (executor.gates category).Consistent)
    (place : Option Category) (category : Category) :
    ((executor.arrive place).gates category).Consistent ∧
      ((executor.arrive place).gates category).capacity = (executor.gates category).capacity := by
  cases place with
  | none => exact ⟨gates category, rfl⟩
  | some own =>
      rw [arrive, gates_setGate]
      split
      · rename_i same
        subst same
        exact ⟨(gates category).acquire _, Gate.capacity_acquire _ _⟩
      · exact ⟨gates category, rfl⟩

theorem pool_arrive (pool : executor.pool.Consistent) (place : Option Category) :
    (executor.arrive place).pool.Consistent ∧
      (executor.arrive place).pool.size = executor.pool.size := by
  cases place with
  | none => exact ⟨pool.step (.acquire _), pool.size_step (.acquire _)⟩
  | some category => exact ⟨pool, rfl⟩

/-- Whoever has come before stands as before. -/
theorem standing_arrive_of_ne (executor : Executor) {place other : Option Category}
    {ticket : Ticket} (apart : other ≠ place ∨ ticket ≠ executor.issued)
    (fresh : executor.standing place executor.issued = .absent) :
    (executor.arrive place).standing other ticket = executor.standing other ticket := by
  cases place with
  | none =>
      cases other with
      | none =>
          have different := apart.resolve_left fun different => different rfl
          exact Pool.standing_acquire_of_ne different
      | some category => rfl
  | some category =>
      cases other with
      | none => rfl
      | some other =>
          have here : (executor.arrive (some category)).gates other =
              if other = category then (executor.gates category).acquire executor.issued
              else executor.gates other := rfl
          simp only [standing, here]
          split
          · rename_i same
            subst same
            exact (Gate.standing_acquire fresh).2 ticket
              (apart.resolve_left fun different => different rfl)
          · rfl

/-- A new ticket is made to wait, let in or sent away. -/
theorem standing_arrive (pool : executor.pool.Consistent) {place : Option Category}
    (served : place = none → 0 < executor.pool.size)
    (fresh : executor.standing place executor.issued = .absent) :
    RunStage.waiting.Lags ((executor.arrive place).standing place executor.issued) := by
  have told {standing : Standing}
      (told : standing = .waiting ∨ standing = .holding ∨ standing = .refused) :
      RunStage.waiting.Lags standing := by
    rcases told with rfl | rfl | rfl
    · exact .inl .waiting
    · exact .inr ⟨rfl, .inl rfl⟩
    · exact .inr ⟨rfl, .inr rfl⟩
  cases place with
  | none => exact told (Pool.standing_acquire pool (served rfl) fresh)
  | some category =>
      have here : (executor.arrive (some category)).gates category =
          (executor.gates category).acquire executor.issued := by
        simp [arrive, gates_setGate]
      rw [standing, here]
      exact told (Gate.standing_acquire fresh).1

/-- A direct ticket comes. -/
theorem Ledger.arrive (settled : executor.Settled capacities) (place : Option Category) :
    (executor.arrive place).Settled capacities := by
  have fresh := settled.fresh place executor.issued (Nat.le_refl _)
  have gates := gates_arrive settled.gates place
  obtain ⟨pool, servers⟩ := pool_arrive settled.pool place
  have more := issued_arrive executor place
  refine settled.update (fun category => (gates category).1) pool
    (fun category => (gates category).2) servers (by omega) (by cases place <;> rfl)
    (fun other ticket absent late => ?_) fun {ticket run} known => ?_
  · have old : ticket ≠ executor.issued := by
      rw [more] at late
      exact Nat.ne_of_gt late
    rwa [standing_arrive_of_ne executor (.inr old) fresh]
  · rw [run?_arrive] at known
    have old := Nat.ne_of_lt (settled.issued known)
    have same (other : Option Category) :
        (executor.arrive place).standing other ticket = executor.standing other ticket :=
      standing_arrive_of_ne executor (.inr old) fresh
    refine ⟨run, known, rfl, rfl, fun other _ => ?_, ?_⟩
    · rw [same]
      exact .stays
    · rw [same]
      exact settled.fits known

/-- The executor with a new run at its place. -/
def enter (executor : Executor) (run : Run) : Executor :=
  { executor.arrive run.place with runs := executor.runs.enter executor.issued run }

theorem run?_enter (settled : executor.Settled capacities) (run : Run) (ticket : Ticket) :
    (executor.enter run).run? ticket =
      if ticket = executor.issued then some run else executor.run? ticket :=
  Claims.get?_enter (run?_issued settled) run ticket

/-- A new run comes. -/
theorem Ledger.enter (settled : executor.Settled capacities) {run : Run}
    (waiting : run.stage = .waiting)
    (served : run.pooled = true → 0 < executor.pool.size) :
    (executor.enter run).Unsettled capacities := by
  have arrived := settled.arrive run.place
  have fresh := settled.fresh run.place executor.issued (Nat.le_refl _)
  -- The runs that came before are the same runs, and stand at the same places.
  have before {ticket : Ticket} {found : Run}
      (known : (executor.enter run).run? ticket = some found) :
      ticket = executor.issued ∧ found = run ∨
        (executor.arrive run.place).run? ticket = some found := by
    rw [run?_enter settled] at known
    split at known
    · rename_i same
      cases known
      exact .inl ⟨same, rfl⟩
    · exact .inr ((run?_arrive executor run.place ticket).trans known)
  refine ⟨arrived.gates, arrived.pool, arrived.permits, arrived.servers, arrived.fresh, ?_,
    fun known => ?_, fun {_ _ other} known elsewhere => ?_, fun known => ?_,
    fun known pooled => ?_⟩
  · exact Claims.nodup_names_enter settled.names (run?_issued settled) run
  · rcases before known with ⟨rfl, rfl⟩ | known
    · exact (issued_arrive executor _).symm ▸ Nat.lt_succ_self _
    · exact arrived.issued known
  · rcases before known with ⟨rfl, rfl⟩ | known
    · change (executor.arrive _).standing other executor.issued = .absent
      rw [standing_arrive_of_ne executor (.inl elsewhere) fresh]
      exact settled.fresh other executor.issued (Nat.le_refl _)
    · exact arrived.alone known elsewhere
  · rcases before known with ⟨rfl, rfl⟩ | known
    · rw [waiting]
      refine standing_arrive settled.pool (fun pool => served ?_) fresh
      simpa [Run.place] using pool
    · exact .inl (arrived.fits known)
  · rcases before known with ⟨rfl, rfl⟩ | known
    · exact settled.servers ▸ served pooled
    · exact arrived.served known pooled

end Executor

end Turnstile

import Turnstile.Proofs.Endpoint.Checking
import Turnstile.Proofs.Executor.Progress
import Turnstile.Proofs.Pool.Leases

/-!
# Which processes bypass their gate

A run is sent to the pool by a loose test: its executable is to contain the name of
the server-aware client, in any letter case.  The check that comes before a process
is started looks for one of the allowed names exactly, of which the loose test may
let through too many.  If no allowed name is ambiguous the two tests agree on
whatever is started.
-/

namespace Turnstile

open Command (Allowed executableName)

/-- The allowed names that contain the client's, in any letter case, are the client's own. -/
def Allowlist.Unambiguous (allowed : Allowlist) : Prop :=
  ∀ name ∈ allowed.names, "unoconvert".toList <:+: (Text.lower name).toList → name = "unoconvert"

theorem Allowlist.unambiguous_standard : Allowlist.standard.Unambiguous := by
  intro name listed
  rw [← contains_eq_true_iff, standard, ofNames, contains_insertAll] at listed
  replace listed := listed.resolve_right nofun
  rw [← Text.occursIn_eq_true_iff]
  revert name
  decide

/-! ## Executables -/

namespace Executor

variable {allowed : Allowlist} {probe : String → PathKind} {executable : String}

theorem isServerClient_iff : isServerClient executable = true ↔
    "unoconvert".toList <:+: (Text.lower (executableName executable)).toList :=
  Text.occursIn_eq_true_iff

/-- The name of an executable without a path is the executable, less a suffix. -/
theorem isPrefix_executableName (plain : ¬ Command.Located executable) :
    (executableName executable).toList <+: executable.toList := by
  have base : Command.BaseName executable.toList executable.toList := by
    refine .bare fun c member => ⟨?_, ?_⟩
    · rintro rfl
      exact plain (.inl member)
    · rintro rfl
      exact plain (.inr member)
  have stem := Command.Stem.of executable.toList
  rw [executableName, ← base.eq_baseName, String.toList_ofList]
  generalize Command.dropSuffix executable.toList = name at stem
  generalize executable.toList = file at stem
  cases stem with
  | cut => exact List.prefix_append _ _
  | whole => exact List.prefix_rfl

/-- Of the executables that may be started the loose test lets through the client alone. -/
theorem isServerClient_iff_of_allowed (unambiguous : allowed.Unambiguous)
    (granted : Allowed allowed probe executable) :
    isServerClient executable = true ↔ executableName executable = "unoconvert" := by
  constructor
  · intro looks
    have contained := isServerClient_iff.mp looks
    cases granted with
    | bare plain listed =>
        -- The suffix is still there when the name is looked up, and could spoil it.
        have whole : (Text.lower (executableName executable)).toList <+:
            (Text.lower executable).toList := by
          simpa [Text.lower] using (isPrefix_executableName plain).map Char.toLower
        have same := unambiguous executable listed (contained.trans whole.isInfix)
        rw [same]
        decide
    | found located file named some listed =>
        obtain rfl := Command.names_iff.mp named
        exact unambiguous _ listed contained
  · intro named
    rw [isServerClient, named]
    decide

end Executor

/-! ## Runs -/

namespace Run

/-- The run asks for office work by the server-aware client, named exactly. -/
def isClient (run : Run) : Bool :=
  run.category == .libreOffice &&
    run.request.argv.head?.any fun executable => executableName executable == "unoconvert"

/-- The run got as far as having a process started, or the system failed to start it. -/
def Attempted (run : Run) : Prop :=
  run.supervision.isSome = true ∨
    ∃ program cause, run.stage = .ended (.error (.spawn program cause))

/-- The run was sent where its command says, and had a process started for what was accepted. -/
structure Screened (setup : Setup) (run : Run) : Prop where
  pooled : run.pooled = setup.usesPool run.category run.request.argv
  admitted : ∀ {request}, run.stage = .admitted request →
    request.argv.head? = run.request.argv.head?
  accepted : run.Attempted → ∃ probe argv, argv.head? = run.request.argv.head? ∧
    setup.runner.check probe argv = .ok ()

variable {setup : Setup} {run later : Run}

theorem Screened.proceeds (screened : run.Screened setup)
    (proceeds : run.Proceeds setup.resolved.1 later) : later.Screened setup := by
  cases proceeds with
  | stays => exact screened
  | passed waiting gated =>
      refine ⟨screened.pooled, ?_, fun attempted => screened.accepted (attempted.imp id nofun)⟩
      rintro _ ⟨⟩
      rfl
  | leased waiting pooled member =>
      refine ⟨screened.pooled, ?_, fun attempted => screened.accepted (attempted.imp id nofun)⟩
      rintro _ ⟨⟩
      obtain ⟨_, executable, arguments, given, _⟩ :=
        World.client_of_usesPool (screened.pooled.symm.trans pooled)
      simp [Request.pointedAt, given, Endpoint.apply_cons]
  | sentAway waiting =>
      refine ⟨screened.pooled, nofun, fun attempted => screened.accepted (attempted.imp id ?_)⟩
      rintro ⟨program, cause, ended⟩
      simp only [interrupted, interruption, Failure.waitingForEndpoint, Failure.waitingForSlot,
        RunStage.ended.injEq, Except.error.injEq] at ended
      split at ended <;> cases ended

theorem Screened.launched (screened : run.Screened setup) (limit now : Time)
    (probe : String → PathKind) (spawned : Except String Answers) :
    (run.launched setup.runner limit now probe spawned).Screened setup := by
  unfold Run.launched
  split
  · rename_i request stage
    have head := screened.admitted stage
    cases verdict : setup.runner.check probe request.argv with
    | error refusal =>
        refine ⟨screened.pooled, nofun, fun attempted => screened.accepted (attempted.imp id ?_)⟩
        rintro ⟨_, _, ⟨⟩⟩
    | ok =>
        have accepted : ∃ probe argv, argv.head? = run.request.argv.head? ∧
            setup.runner.check probe argv = .ok () := ⟨probe, request.argv, head, verdict⟩
        cases setup.runner.start now limit request.argv (.ok ()) spawned with
        | error failure => exact ⟨screened.pooled, nofun, fun _ => accepted⟩
        | ok supervision => exact ⟨screened.pooled, nofun, fun _ => accepted⟩
  · exact screened

theorem Screened.supervised (screened : run.Screened setup)
    (change : Supervision → Supervision) : (run.supervised change).Screened setup := by
  unfold Run.supervised
  split
  · rename_i before process
    have accepted := screened.accepted (.inl (by simp [process]))
    unfold kept
    split
    · exact ⟨screened.pooled, nofun, fun _ => accepted⟩
    · exact ⟨screened.pooled, screened.admitted, fun _ => accepted⟩
  · exact screened

theorem Screened.givenUp (screened : run.Screened setup) : run.givenUp.Screened setup := by
  unfold Run.givenUp
  split
  · exact screened
  · exact screened
  · refine ⟨screened.pooled, nofun, fun attempted => screened.accepted (attempted.imp ?_ nofun)⟩
    intro process
    simpa using process

theorem Screened.heed (screened : run.Screened setup) (limit : Time) (ticket : Ticket)
    (action : Action) : (run.heed setup.runner limit ticket action).Screened setup := by
  unfold Run.heed
  split
  · split
    · exact screened.launched limit _ _ _
    · exact screened
  · split
    · exact screened.supervised _
    · exact screened
  · exact screened.supervised _
  · split
    · exact screened.givenUp
    · exact screened
  · exact screened

/-- What was started was sent to the pool exactly if it is the client. -/
theorem Screened.pooled_iff (screened : run.Screened setup)
    (unambiguous : setup.allowed.Unambiguous) (servers : setup.resolved.1 ≠ [])
    (attempted : run.Attempted) : run.pooled = run.isClient := by
  obtain ⟨probe, argv, head, accepted⟩ := screened.accepted attempted
  obtain ⟨executable, arguments, rfl, acceptable⟩ := Command.check_eq_ok_iff.mp accepted
  have exactly : Executor.isServerClient executable =
      (executableName executable == "unoconvert") := by
    rw [Bool.eq_iff_iff, beq_iff_eq]
    exact Executor.isServerClient_iff_of_allowed unambiguous acceptable.granted
  have some : setup.build.pool.isEmpty = false := by
    simpa [Setup.build, Pool.of, Pool.isEmpty] using servers
  rw [screened.pooled, Setup.usesPool, Executor.usesPool, isClient, ← head, some]
  simp [exactly]

end Run

/-! ## Claims -/

namespace Executor

variable {before after : Executor} {place : Option Category} {ticket : Ticket}

/-- Who has come to a gate or to the pool is known there for ever. -/
theorem Leads.present (leads : before.Leads after)
    (gates : ∀ category, (before.gates category).Consistent) (pool : before.pool.Consistent)
    (present : before.standing place ticket ≠ .absent) :
    after.standing place ticket ≠ .absent := by
  cases place with
  | none =>
      obtain ⟨actions, same⟩ := leads.pool
      simp only [standing, ne_eq, Pool.standing_eq_absent_iff] at present ⊢
      rw [same, pool.get?_run_eq_none_iff]
      exact fun absent => present absent.1
  | some category =>
      obtain ⟨actions, same⟩ := leads.gates category
      simp only [standing, ne_eq, Gate.standing_eq_absent_iff] at present ⊢
      rw [same]
      refine (gates category).run_keeps (· ≠ none) ?_ present actions
      intro _ _ _ _ known moves
      cases moves with
      | stays => exact known
      | _ => exact Option.some_ne_none _

end Executor

namespace World

variable {setup : Setup} {ticket : Ticket} {run : Run}

/-- A new run is known at its place at once. -/
theorem Coherent.present_begin {world : World} (coherent : world.Coherent setup)
    {category : Category} {request : Request}
    (known : (world.step (.begin category request)).executor.run? world.executor.issued =
      some run) :
    (world.step (.begin category request)).executor.standing run.place
      world.executor.issued ≠ .absent := by
  have settled := coherent.settled
  rw [(coherent.proceeds_begin known).place, World.step, Executor.begin_eq]
  have some (uses : world.executor.usesPool category request.argv = true) :
      0 < world.executor.pool.size := Executor.pool_ne_empty_of_usesPool uses
  generalize world.executor.usesPool category request.argv = pooled at some
  have served (pool : Run.place { category, request, pooled } = none) :
      0 < world.executor.pool.size := some (by simpa [Run.place] using pool)
  have told := Executor.standing_arrive settled.pool served (settled.fresh _ _ (Nat.le_refl _))
  change (world.executor.arrive _).standing _ _ ≠ .absent
  rcases told.standing_of_waiting with told | told | told <;> simp [told]

/-- A run is known at its own place from its beginning. -/
theorem present_run (actions : List Action)
    (known : (World.run setup actions).executor.run? ticket = some run) :
    (World.run setup actions).executor.standing run.place ticket ≠ .absent := by
  induction actions using List.reverseRecOn generalizing ticket run with
  | nil => cases known
  | append_singleton actions action ih =>
      have coherent := coherent_run setup actions
      have settled := coherent.settled
      have leads := leads_step (World.run setup actions) action
      rw [run_append] at known ⊢
      change ((World.run setup actions).step action).executor.run? ticket = some run at known
      change ((World.run setup actions).step action).executor.standing run.place ticket ≠ .absent
      by_cases old : ticket ≠ (World.run setup actions).executor.issued ∨
          ∀ category request, action ≠ .begin category request
      · obtain ⟨fate, same, goes⟩ := coherent.makes_step old
        rw [same, Option.map_eq_some_iff] at known
        obtain ⟨before, known, rfl⟩ := known
        rw [(goes before).place, (before.heeds_heed _ _ _ _).place]
        exact leads.present settled.gates settled.pool (ih known)
      · obtain ⟨comes, begins⟩ := not_or.mp old
        obtain ⟨category, request, rfl⟩ : ∃ category request, action = .begin category request := by
          simpa using begins
        obtain rfl := not_ne_iff.mp comes
        exact coherent.present_begin known

theorem screened_run (actions : List Action)
    (known : (World.run setup actions).executor.run? ticket = some run) : run.Screened setup := by
  refine forall_run_of_heed (Run.Screened setup) ?_ Run.Screened.proceeds ?_ actions known
  · intro category request
    refine ⟨rfl, nofun, ?_⟩
    rintro (started | ⟨_, _, failed⟩)
    · cases started
    · cases failed
  · intro run limit ticket action screened
    exact screened.heed limit ticket action

/-- How a run that had a process started passed, or bypassed, the gate of its category. -/
structure RoutedByName (world : World) (ticket : Ticket) (run : Run) : Prop where
  /-- The client alone was never at the gate of its category. -/
  bypasses : (world.executor.gates run.category).claims.get? ticket = none ↔ run.isClient = true
  /-- The client alone was at the pool. -/
  leases : world.executor.pool.claims.get? ticket ≠ none ↔ run.isClient = true
  /-- Nobody was at the gate of another category. -/
  elsewhere : ∀ category, category ≠ run.category →
    (world.executor.gates category).claims.get? ticket = none
  /-- Whoever is not the client has a permit as long as its process is looked after. -/
  permitted : run.stage = .active → run.isClient = false →
    (world.executor.gates run.category).claims.get? ticket = some .held
  /-- The client has a server as long as its process is looked after. -/
  served : run.stage = .active → run.isClient = true →
    ∃ slot, world.executor.pool.claims.get? ticket = some (.leased slot true)

/-- The processes of a category that are alive, those of the server-aware client left out. -/
def gated (world : World) (category : Category) : List Ticket :=
  (world.executor.runs.filter fun item =>
    item.2.category = category && !item.2.isClient && world.isLive item.1 item.2).map Prod.fst

/-- A run that is active holds what it was let in with. -/
theorem Coherent.holding_of_active {world : World} (coherent : world.Coherent setup)
    (known : world.executor.run? ticket = some run) (active : run.stage = .active) :
    world.executor.standing run.place ticket = .holding := by
  have fits := coherent.settled.fits known
  rw [active] at fits
  generalize world.executor.standing run.place ticket = standing at fits
  cases fits
  rfl

/-- A run that was sent where its name says is known there and nowhere else. -/
theorem Coherent.routedByName {world : World} (coherent : world.Coherent setup)
    (known : world.executor.run? ticket = some run)
    (present : world.executor.standing run.place ticket ≠ .absent)
    (routed : run.pooled = run.isClient) : world.RoutedByName ticket run := by
  have absent (place : Option Category) (other : place ≠ run.place) :
      world.executor.standing place ticket = .absent := coherent.settled.alone known other
  have holds := coherent.holding_of_active known
  cases client : run.isClient with
  | true =>
      have place : run.place = none := by rw [Run.place, routed, client, if_pos rfl]
      rw [place] at present absent holds
      have away (category : Category) :
          (world.executor.gates category).claims.get? ticket = none :=
        Gate.standing_eq_absent_iff.mp (absent (some category) (Option.some_ne_none _))
      constructor
      case bypasses => exact iff_of_true (away run.category) client
      case leases => exact iff_of_true (mt Pool.standing_eq_absent_iff.mpr present) client
      case elsewhere => exact fun category _ => away category
      case permitted => simp [client]
      case served => exact fun active _ => Pool.standing_eq_holding_iff.mp (holds active)
  | false =>
      have place : run.place = some run.category := by simp [Run.place, routed, client]
      rw [place] at present absent holds
      have other : ¬ run.isClient = true := by simp [client]
      constructor
      case bypasses => exact iff_of_false (mt Gate.standing_eq_absent_iff.mpr present) other
      case leases =>
        have noLease := Pool.standing_eq_absent_iff.mp (absent none (Option.some_ne_none _).symm)
        exact iff_of_false (not_not_intro noLease) other
      case elsewhere =>
        intro category different
        refine Gate.standing_eq_absent_iff.mp (absent (some category) ?_)
        simpa using different
      case permitted => exact fun active _ => Gate.standing_eq_holding_iff.mp (holds active)
      case served => simp [client]

/-- Nobody but the client has a process outside the limit of its category. -/
theorem Coherent.length_gated_le {world : World} (coherent : world.Coherent setup)
    (routed : ∀ {ticket run}, world.executor.run? ticket = some run → run.Attempted →
      run.pooled = run.isClient) (category : Category) :
    (world.gated category).length ≤ (setup.limitsFor category).maxConcurrency := by
  have bounded := coherent.bounded
  have fewer : (world.gated category).length ≤ (world.live (some category)).length := by
    rw [gated, live, List.length_map, List.length_map, ← List.countP_eq_length_filter,
      ← List.countP_eq_length_filter]
    refine List.countP_mono_left fun entry member counted => ?_
    obtain ⟨ticket, run⟩ := entry
    have known := Claims.get?_of_mem coherent.settled.names member
    simp only [Bool.and_eq_true, decide_eq_true_eq, Bool.not_eq_true'] at counted ⊢
    obtain ⟨⟨rfl, other⟩, alive⟩ := counted
    have started : run.supervision.isSome = true := by
      unfold isLive at alive
      cases process : run.supervision with
      | none => simp [process] at alive
      | some supervision => rfl
    have gated : run.pooled = false := (routed known (.inl started)).trans other
    exact ⟨by simp [Run.place, gated], alive⟩
  calc (world.gated category).length
      ≤ (world.live (some category)).length := fewer
    _ ≤ (world.executor.gates category).capacity := bounded.live category
    _ ≤ (setup.limitsFor category).maxConcurrency := by
        rw [bounded.capacity]
        exact Nat.min_le_left _ _

/--
Of the processes that are started, those of the server-aware client bypass the gate
of their category, and no others, provided that no allowed name is ambiguous.
-/
theorem bypass_exact : Allowlist.standard.Unambiguous ∧
    ∀ setup : Setup, setup.allowed.Unambiguous → setup.resolved.1 ≠ [] → ∀ actions : List Action,
      (∀ ticket run, (World.run setup actions).executor.run? ticket = some run → run.Attempted →
        (World.run setup actions).RoutedByName ticket run) ∧
      ∀ category, ((World.run setup actions).gated category).length ≤
        (setup.limitsFor category).maxConcurrency := by
  refine ⟨Allowlist.unambiguous_standard, fun setup unambiguous servers actions => ?_⟩
  have coherent := coherent_run setup actions
  have routed {ticket : Ticket} {run : Run}
      (known : (World.run setup actions).executor.run? ticket = some run)
      (attempted : run.Attempted) : run.pooled = run.isClient :=
    (screened_run actions known).pooled_iff unambiguous servers attempted
  constructor
  · intro ticket run known attempted
    exact coherent.routedByName known (present_run actions known) (routed known attempted)
  · intro category
    exact coherent.length_gated_le routed category

/-- An executor with one pooled server, which allows what is allowed by default. -/
def officePool : Setup where
  endpoints := some [.plain "127.0.0.1" 2003]

/-- The client by a path and with a suffix, and another tool for the same work. -/
def officeWork : List Action :=
  [.begin .libreOffice ⟨["/opt/office/unoconvert.EXE", "in.odt"], none⟩,
    .begin .libreOffice ⟨["soffice", "in.odt"], none⟩,
    .launch 0 0 (fun _ => .file) (.ok {}), .launch 1 0 (fun _ => .missing) (.error "not found")]

theorem bypass_exact_office : officePool.allowed.Unambiguous ∧ officePool.resolved.1 ≠ [] ∧
    ∃ client other, (World.run officePool officeWork).executor.run? 0 = some client ∧
      (World.run officePool officeWork).executor.run? 1 = some other ∧
      client.isClient = true ∧ other.isClient = false ∧
      (World.run officePool officeWork).RoutedByName 0 client ∧
      (World.run officePool officeWork).RoutedByName 1 other := by
  have unambiguous : officePool.allowed.Unambiguous := Allowlist.unambiguous_standard
  have servers : officePool.resolved.1 ≠ [] := by decide
  obtain ⟨routed, _⟩ := bypass_exact.2 officePool unambiguous servers officeWork
  refine ⟨unambiguous, servers, _, _, rfl, rfl, rfl, rfl, ?_, ?_⟩
  · exact routed 0 _ rfl (.inl rfl)
  · exact routed 1 _ rfl (.inr ⟨_, _, rfl⟩)

end World

end Turnstile

import EngineFuzz.Probe
import EngineFuzz.Proofs.SynthesisLimits
/-!
# What probing an engine comes to

A round of probing draws a statement and starts the engine with it, and the next round goes on
from the random source and the files that are there then.  The engine may answer as it likes, on
the ground of everything that was started before, but it has no hand in the random source.  So
the statements are those that are drawn one after the other without any engine, and the failures
are what is left of the trials when the successes are taken out.

Two things end the rounds early: a start that does not come about, and a statement that cannot
be made because more literals are asked for than can be held.

* `Surroundings`, `Answered` — what an engine can go by, and its answers to one start after the
  other;
* `failuresFrom` — the trials that are reported, each under its own number;
* `ProbeEnds`, `probeFrom_ends` — the ends of probing;
* `probe_reports_failures` — the ends, the starts, and which literals never end it early.
-/

namespace EngineFuzz

open Randomness

/-- A statement that an engine was started with, and what came of the start. -/
structure Trial where
  statement : String
  outcome : Outcome
deriving DecidableEq, Repr

/-- What there is when an engine is started: the starts so far, the latest first, and the files. -/
structure Surroundings where
  launches : List Launch
  files : FileTree
deriving DecidableEq, Repr

namespace Surroundings

/-- The start that tries a statement. -/
def start (around : Surroundings) (engine : Engine) (statement : String) : Launch :=
  ⟨engine.command, engine.args ++ ["-e", statement], around.files⟩

/-- What there is behind a trial. -/
def behind (around : Surroundings) (engine : Engine) (trial : Trial) : Surroundings :=
  ⟨around.start engine trial.statement :: around.launches, trial.outcome.files⟩

/-- What there is behind trials, one after the other. -/
def behindAll (around : Surroundings) (engine : Engine) (tried : List Trial) : Surroundings :=
  tried.foldl (fun around trial => around.behind engine trial) around

/-- The engine answers the starts of the trials, one after the other, with their outcomes. -/
def Answered (engines : Engines) (engine : Engine) : Surroundings → List Trial → Prop
  | _, [] => True
  | around, trial :: tried =>
    engines around.launches (around.start engine trial.statement) = .ok trial.outcome ∧
      Answered engines engine (around.behind engine trial) tried

@[simp] theorem behindAll_cons (around : Surroundings) (engine : Engine) (trial : Trial)
    (tried : List Trial) : around.behindAll engine (trial :: tried) =
      (around.behind engine trial).behindAll engine tried := rfl

/-- The engine has been started once for every trial. -/
theorem args_behindAll (around : Surroundings) (engine : Engine) (tried : List Trial) :
    (around.behindAll engine tried).launches.map Launch.args =
      (tried.map fun trial => engine.args ++ ["-e", trial.statement]).reverse ++
        around.launches.map Launch.args := by
  induction tried generalizing around with
  | nil => rfl
  | cons trial tried ih =>
    rw [behindAll_cons, ih, List.map_cons, List.reverse_cons, List.append_assoc]
    rfl

end Surroundings

namespace Session

/-- What an engine finds in a session. -/
def around (session : Session) : Surroundings := ⟨session.launches, session.files⟩

/-- The session in other surroundings, and with another random source. -/
def amid (session : Session) (around : Surroundings) (random : Source) : Session :=
  { session with launches := around.launches, files := around.files, random }

@[simp] theorem around_amid (session : Session) (around : Surroundings) (random : Source) :
    (session.amid around random).around = around := rfl

@[simp] theorem random_amid (session : Session) (around : Surroundings) (random : Source) :
    (session.amid around random).random = random := rfl

@[simp] theorem amid_amid (session : Session) (before after : Surroundings)
    (earlier later : Source) :
    (session.amid before earlier).amid after later = session.amid after later := rfl

end Session

/-- The failures among trials that are numbered from `first` on: the trials without success,
each with its number, its statement, and its two outputs as text. -/
def failuresFrom (first : Nat) (tried : List Trial) : List ProbeFailure :=
  ((tried.zipIdx first).filter fun (trial, _) => trial.outcome.status ≠ .exited 0).map
    fun (trial, number) =>
      ⟨number, trial.statement, Text.lossy trial.outcome.stdout ++ Text.lossy trial.outcome.stderr⟩

/-- The first trial is reported by itself. -/
theorem failuresFrom_cons (first : Nat) (trial : Trial) (tried : List Trial) :
    failuresFrom first (trial :: tried) =
      (ProbeFailure.ofOutcome? first trial.statement trial.outcome).toList ++
        failuresFrom (first + 1) tried := by
  by_cases hstatus : trial.outcome.status = .exited 0
  · simp [failuresFrom, ProbeFailure.ofOutcome?, ExitStatus.isSuccess, hstatus]
  · simp [failuresFrom, ProbeFailure.ofOutcome?, ExitStatus.isSuccess, hstatus]

/-- The ends of probing with `count` statements that are numbered from `first` on. -/
inductive ProbeEnds (engines : Engines) (engine : Engine) (literals : SizeRange) (first count : Nat)
    (session : Session) : Except Error (List ProbeFailure) × Session → Prop
  /-- Every statement has been tried. -/
  | finished {tried : List Trial} {next : Source} (hcount : tried.length = count)
      (hstatements : (probeStatements .standard literals tried.length).run session.random =
        (.ok (tried.map Trial.statement), next))
      (hanswered : session.around.Answered engines engine tried) :
      ProbeEnds engines engine literals first count session
        (.ok (failuresFrom first tried), session.amid (session.around.behindAll engine tried) next)
  /-- The engine could not be started with the statement behind those that have been tried. -/
  | notLaunched {tried : List Trial} {statement : String} {next : Source} {fault : SystemFault}
      (hcount : tried.length < count)
      (hstatements : (probeStatements .standard literals (tried.length + 1)).run session.random =
        (.ok (tried.map Trial.statement ++ [statement]), next))
      (hanswered : session.around.Answered engines engine tried)
      (hfault : engines (session.around.behindAll engine tried).launches
        ((session.around.behindAll engine tried).start engine statement) = .error fault) :
      ProbeEnds engines engine literals first count session
        (.error (.engine (.notLaunched engine.command fault)), session.amid
          ⟨(session.around.behindAll engine tried).start engine statement ::
            (session.around.behindAll engine tried).launches,
            (session.around.behindAll engine tried).files⟩ next)
  /-- No statement could be made behind those that have been tried. -/
  | overloaded {tried : List Trial} {middle next : Source} {overload : Overload}
      (hcount : tried.length < count)
      (hstatements : (probeStatements .standard literals tried.length).run session.random =
        (.ok (tried.map Trial.statement), middle))
      (hanswered : session.around.Answered engines engine tried)
      (hoverload : (probeStatement .standard literals).run middle = (.error overload, next)) :
      ProbeEnds engines engine literals first count session
        (.error (.overload overload), session.amid (session.around.behindAll engine tried) next)

section Rounds

variable {engines : Engines} {engine : Engine} {literals : SizeRange} {first count : Nat}
  {session : Session} {random middle next : Source} {statement : String} {statements : List String}

/-- Statements are drawn one after the other. -/
theorem run_probeStatements_succ
    (hfirst : (probeStatement .standard literals).run random = (.ok statement, middle))
    (hrest : (probeStatements .standard literals count).run middle = (.ok statements, next)) :
    (probeStatements .standard literals (count + 1)).run random =
      (.ok (statement :: statements), next) := by
  rw [probeStatements, Synthesis.run_bind_of_ok hfirst, Synthesis.run_bind_of_ok hrest]
  rfl

/-- A statement that is drawn moves the random source alone. -/
theorem Action.synthesize_of_ok {α : Type} {s : Synthesis α} {a : α}
    (h : s.run session.random = (.ok a, next)) :
    Action.synthesize s session = (.ok a, { session with random := next }) := by
  simp only [Action.synthesize, h]

/-- An overload moves the random source alone. -/
theorem Action.synthesize_of_error {α : Type} {s : Synthesis α} {overload : Overload}
    (h : s.run session.random = (.error overload, next)) :
    Action.synthesize s session =
      (.error (.overload overload), { session with random := next }) := by
  simp only [Action.synthesize, h]

/-- What the later rounds come to, behind a first one that the engine has ended. -/
def afterTrial (first : Nat) (trial : Trial) :
    Except Error (List ProbeFailure) × Session → Except Error (List ProbeFailure) × Session
  | (.ok rest, after) =>
    (.ok ((ProbeFailure.ofOutcome? first trial.statement trial.outcome).toList ++ rest), after)
  | (.error error, after) => (.error error, after)

/-- **A round** that the engine ends. -/
theorem probeFrom_succ_of_ok {outcome : Outcome}
    (hstatement : (probeStatement .standard literals).run session.random = (.ok statement, next))
    (hended : engines session.launches (session.around.start engine statement) = .ok outcome) :
    probeFrom engines engine literals first (count + 1) session =
      afterTrial first ⟨statement, outcome⟩ (probeFrom engines engine literals (first + 1) count
        (session.amid (session.around.behind engine ⟨statement, outcome⟩) next)) := by
  have hlaunch : Action.launch engines engine ["-e", statement] { session with random := next } =
      (.ok outcome, session.amid (session.around.behind engine ⟨statement, outcome⟩) next) :=
    Action.launch_of_ok hended
  rw [probeFrom, Action.bind_of_ok (Action.synthesize_of_ok hstatement), Action.bind_of_ok hlaunch]
  rcases hrest : probeFrom engines engine literals (first + 1) count
    (session.amid (session.around.behind engine ⟨statement, outcome⟩) next)
      with ⟨error | rest, after⟩
  · rw [Action.bind_of_error hrest]
    rfl
  · rw [Action.bind_of_ok hrest]
    rfl

/-- **A round** in which the engine cannot be started. -/
theorem probeFrom_succ_of_fault {fault : SystemFault}
    (hstatement : (probeStatement .standard literals).run session.random = (.ok statement, next))
    (hfault : engines session.launches (session.around.start engine statement) = .error fault) :
    probeFrom engines engine literals first (count + 1) session =
      (.error (.engine (.notLaunched engine.command fault)),
        session.amid ⟨session.around.start engine statement :: session.launches,
          session.files⟩ next) := by
  have hlaunch : Action.launch engines engine ["-e", statement] { session with random := next } =
      (.error (.engine (.notLaunched engine.command fault)), session.amid
        ⟨session.around.start engine statement :: session.launches, session.files⟩ next) :=
    Action.launch_of_error hfault
  rw [probeFrom, Action.bind_of_ok (Action.synthesize_of_ok hstatement),
    Action.bind_of_error hlaunch]

/-- **A round** without a statement. -/
theorem probeFrom_succ_of_overload {overload : Overload}
    (hoverload : (probeStatement .standard literals).run session.random = (.error overload, next)) :
    probeFrom engines engine literals first (count + 1) session =
      (.error (.overload overload), session.amid session.around next) := by
  rw [probeFrom, Action.bind_of_error (Action.synthesize_of_error hoverload)]
  rfl

/-- **One more round** in front. -/
theorem ProbeEnds.cons {outcome : Outcome} {ended : Except Error (List ProbeFailure) × Session}
    (hstatement : (probeStatement .standard literals).run session.random = (.ok statement, middle))
    (hended : engines session.launches (session.around.start engine statement) = .ok outcome)
    (h : ProbeEnds engines engine literals (first + 1) count
      (session.amid (session.around.behind engine ⟨statement, outcome⟩) middle) ended) :
    ProbeEnds engines engine literals first (count + 1) session
      (afterTrial first ⟨statement, outcome⟩ ended) := by
  cases h with
  | @finished tried next hcount hstatements hanswered =>
    rw [Session.random_amid] at hstatements
    rw [Session.around_amid] at hanswered ⊢
    rw [Session.amid_amid, ← Surroundings.behindAll_cons, afterTrial, ← failuresFrom_cons]
    refine .finished ?_ ?_ ⟨hended, hanswered⟩
    · rw [List.length_cons, hcount]
    · exact run_probeStatements_succ hstatement hstatements
  | @notLaunched tried last next fault hcount hstatements hanswered hfault =>
    rw [Session.random_amid] at hstatements
    rw [Session.around_amid] at hanswered hfault ⊢
    rw [Session.amid_amid, ← Surroundings.behindAll_cons, afterTrial]
    refine .notLaunched ?_ ?_ ⟨hended, hanswered⟩ hfault
    · exact Nat.succ_lt_succ hcount
    · exact run_probeStatements_succ hstatement hstatements
  | @overloaded tried before next overload hcount hstatements hanswered hoverload =>
    rw [Session.random_amid] at hstatements
    rw [Session.around_amid] at hanswered ⊢
    rw [Session.amid_amid, ← Surroundings.behindAll_cons, afterTrial]
    refine .overloaded ?_ ?_ ⟨hended, hanswered⟩ hoverload
    · exact Nat.succ_lt_succ hcount
    · exact run_probeStatements_succ hstatement hstatements

/-- **All rounds.** -/
theorem probeFrom_ends (engines : Engines) (engine : Engine) (literals : SizeRange)
    (first count : Nat) (session : Session) :
    ProbeEnds engines engine literals first count session
      (probeFrom engines engine literals first count session) := by
  induction count generalizing first session with
  | zero =>
    exact @ProbeEnds.finished engines engine literals first 0 session
      [] session.random rfl rfl trivial
  | succ count ih =>
    rcases hstatement : (probeStatement .standard literals).run session.random with
      ⟨overload | statement, next⟩
    · rw [probeFrom_succ_of_overload hstatement]
      exact @ProbeEnds.overloaded engines engine literals first (count + 1) session
        [] session.random next overload (Nat.succ_pos count) rfl trivial hstatement
    · cases hended : engines session.launches (session.around.start engine statement) with
      | error fault =>
        have hone : (probeStatements .standard literals 1).run session.random =
            (.ok [statement], next) :=
          run_probeStatements_succ hstatement rfl
        rw [probeFrom_succ_of_fault hstatement hended]
        exact @ProbeEnds.notLaunched engines engine literals first (count + 1) session
          [] statement next fault (Nat.succ_pos count) hone trivial hended
      | ok outcome =>
        rw [probeFrom_succ_of_ok hstatement hended]
        exact .cons hstatement hended (ih (first + 1) _)

end Rounds

/-- **Probing reports exactly the failing trials, and the engine does not disturb them.**
Whatever the engine answers, it is started with the statements that are drawn one after the
other from the random source.  If all starts come about, the trials without success are reported
in their order, numbered from one, and the random source is left behind as many statements as
were asked for; if a start does not come about, that is the error, no statement has been tried
behind it and none drawn.  A statement that cannot be made ends the probing too.  That never
happens if the greatest number of literals can be held, and otherwise it happens from some
random source, before the engine has been started at all. -/
theorem probe_reports_failures (engines : Engines) (engine : Engine) (count : Nat)
    (literals : SizeRange) (session : Session) :
    let ended := probe engines engine count literals session
    ProbeEnds engines engine literals 1 count session ended ∧
    (∃ statements next,
      (probeStatements .standard literals statements.length).run session.random =
        (.ok statements, next) ∧
      ended.2.launches.map Launch.args =
          (statements.map fun statement => engine.args ++ ["-e", statement]).reverse ++
            session.launches.map Launch.args) ∧
    (CanHold 16 literals.max.toNat → (∃ failures, ended.1 = .ok failures) ∨
      ∃ fault, ended.1 = .error (.engine (.notLaunched engine.command fault))) ∧
    (¬CanHold 16 literals.max.toNat → 0 < count → ∃ random overload next,
      probe engines engine count literals { session with random } =
        (.error (.overload overload), { session with random := next })) := by
  intro ended
  have hends : ProbeEnds engines engine literals 1 count session ended :=
    probeFrom_ends engines engine literals 1 count session
  refine ⟨hends, ?_, fun hhold => ?_, fun hover hpos => ?_⟩
  · generalize ended = ended at hends
    cases hends with
    | @finished tried next hcount hstatements hanswered =>
      refine ⟨tried.map Trial.statement, next, by rwa [List.length_map], ?_⟩
      rw [List.map_map]
      exact session.around.args_behindAll engine tried
    | @notLaunched tried statement next fault hcount hstatements hanswered hfault =>
      refine ⟨tried.map Trial.statement ++ [statement], next, ?_, ?_⟩
      · rwa [List.length_append, List.length_map]
      · rw [List.map_append, List.map_map, List.reverse_append]
        exact congrArg _ (session.around.args_behindAll engine tried)
    | @overloaded tried middle next overload hcount hstatements hanswered hoverload =>
      refine ⟨tried.map Trial.statement, middle, by rwa [List.length_map], ?_⟩
      rw [List.map_map]
      exact session.around.args_behindAll engine tried
  · generalize ended = ended at hends
    cases hends with
    | finished => exact .inl ⟨_, rfl⟩
    | notLaunched => exact .inr ⟨_, rfl⟩
    | @overloaded tried middle next overload hcount hstatements hanswered hoverload =>
      obtain ⟨statement, after, hmade⟩ :=
        (probeStatement_fits_iff .standard literals).mpr hhold middle
      rw [hoverload] at hmade
      cases hmade
  · have hsome := mt (probeStatement_fits_iff .standard literals).mp hover
    obtain ⟨random, hrandom⟩ := Classical.not_forall.mp hsome
    obtain ⟨fewer, rfl⟩ : ∃ fewer, count = fewer + 1 := ⟨count - 1, by omega⟩
    rcases hrun : (probeStatement .standard literals).run random with ⟨overload | statement, next⟩
    · exact ⟨random, overload, next, probeFrom_succ_of_overload hrun⟩
    · exact absurd ⟨statement, next, hrun⟩ hrandom

/-- A range of literals of which no statement can be made: the engine, which would end every
start with success, is never started, and there is no list of failures. -/
theorem probe_without_statement :
    let engines : Engines := fun _ launch => .ok ⟨.exited 0, [], [], launch.files⟩
    let session := Session.begin ⟨[], [], []⟩ (.listed []) (.listed [])
    probe engines ⟨"true", []⟩ 1 (.exactly 9223372036854775807) session =
      (.error (.overload .storage), session) := by
  rfl

end EngineFuzz

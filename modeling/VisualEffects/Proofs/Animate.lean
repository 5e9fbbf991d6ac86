import Mathlib.Control.Monad.Basic
import VisualEffects.CommandLine.Program
import VisualEffects.Proofs.Timelines

namespace VisualEffects

/-! What the program writes for a script.

The program materializes the tracks of a script with a duration that it works out by itself.  Starting a builder that
was configured from the script uses the duration that the builder has.  Both lead to the same animations: what is
written is what a start leaves on a timeline of its own, with the duration of the command line if one is given.
-/

theorem run_stateM_bind (first : StateM σ α) (next : α → StateM σ β) (state : σ) :
    (first >>= next).run state = (next (first.run state).1).run (first.run state).2 := rfl

namespace AnimationBackend

theorem accepted_of_none (animations : List (TimedTrack Float)) : accepted (fun _ => none) animations = animations := by
  obtain all | ⟨_, _, _, _, refuses⟩ := accepted_cases (fun _ => none) animations
  · exact all
  · cases refuses

end AnimationBackend

namespace AnimationBuilder

variable {τ : Type} [AnimationTarget τ]

theorem run_materialize_record (builder : AnimationBuilder τ) (duration : Duration) (timeline : Timeline) :
    (builder.materialize Timeline.record duration).run.run timeline =
      (.ok ⟨builder.bound duration, builder.bound duration, duration⟩,
        (builder.bound duration).foldl Timeline.withCreated timeline) :=
  run_materialize_of_accepted AnimationBackend.record_records
    (AnimationBackend.accepted_of_none (builder.bound duration)) timeline

/-- A start never fails on a timeline, and leaves the animations of the builder there. -/
theorem run_start_record (builder : AnimationBuilder τ) :
    ∃ timeline, (builder.start Timeline.record).run.run {} = (.ok (), timeline) ∧
      timeline.created.toList = builder.bound builder.duration := by
  let bound := builder.bound builder.duration
  have begins := AnimationBackend.record_records.run_beginAll (τ := τ) (fun _ => none) bound
    (bound.foldl Timeline.withCreated {})
  refine ⟨bound.foldl Timeline.withBegun (bound.foldl Timeline.withCreated {}), ?_, ?_⟩
  · simp only [start, run_run_bind, run_materialize_record]
    exact congrArg (fun outcome => (Except.ok (), outcome.2)) begins
  · rw [(Timeline.foldl_withBegun _ _).1, (Timeline.foldl_withCreated _ _).1]
    rfl

theorem bound_lasting (builder : AnimationBuilder τ) (duration other : Duration) :
    builder.bound other = (builder.bound duration).map ({ · with duration := other }) := by
  rw [bound, bound, List.map_map]
  rfl

end AnimationBuilder

namespace AnimationScript

variable {τ : Type} [AnimationTarget τ]

theorem recordAll_keeps (steps : List Request) (builder : AnimationBuilder τ) :
    let after := (recordAll steps builder).1
    after.target = builder.target ∧ after.duration = builder.duration ∧ after.delay = builder.delay := by
  induction steps generalizing builder with
  | nil => exact ⟨rfl, rfl, rfl⟩
  | cons step rest ih =>
      rw [recordAll, Request.run_apply]
      cases step.suits builder.target with
      | true => exact ih { builder with tracks := builder.tracks ++ step.expansion }
      | false => exact ⟨rfl, rfl, rfl⟩

/-- A new builder that is configured from a script has the duration of the script, or that of new builders. -/
theorem duration_configure (script : AnimationScript) (target : τ) :
    (script.configure (AnimationBuilder.ofTarget target)).1.duration =
      .ofMilliseconds (script.durationMs.getD ({} : AnimationOptions).durationMs) := by
  rw [configure, (recordAll_keeps _ _).2.1, setTiming]
  cases script.durationMs <;> cases script.delayMs <;> rfl

/-- Animations with the duration of the command line, if there is one. -/
def retimed (durationMs : Option UInt64) (animations : List (TimedTrack Float)) : List (TimedTrack Float) :=
  match durationMs with
  | none => animations
  | some count => animations.map ({ · with duration := .ofMilliseconds count })

theorem animations_eq (script : AnimationScript) (durationMs : Option UInt64) :
    let configured := script.configure (AnimationBuilder.ofTarget script.target)
    script.animations durationMs =
      configured.2.map fun _ => retimed durationMs (configured.1.bound configured.1.duration) := by
  intro configured
  have duration : configured.1.duration = _ := script.duration_configure script.target
  rw [animations]
  simp only [AnimationBuilder.run_materialize_record]
  change (configured.2 >>= fun _ => Except.ok (configured.1.bound _)) = _
  cases configured.2 with
  | error error => rfl
  | ok _ =>
      cases durationMs with
      | none => rw [duration]; rfl
      | some count => exact congrArg Except.ok (configured.1.bound_lasting configured.1.duration _)

end AnimationScript

inductive FileRequest where
  | read (path : String)
  | createDirectory (path : String)
  | write (path text : String)

namespace FileAccess

/-- Access that also writes down what is asked, in order. -/
def logged (files : FileAccess (StateM ω)) : FileAccess (StateM (ω × List FileRequest)) where
  read path := fun (world, log) =>
    let (answer, after) := (files.read path).run world
    (answer, after, log ++ [.read path])
  createDirectory path := fun (world, log) =>
    let (answer, after) := (files.createDirectory path).run world
    (answer, after, log ++ [.createDirectory path])
  write path text := fun (world, log) =>
    let (answer, after) := (files.write path text).run world
    (answer, after, log ++ [.write path text])

variable {ω : Type} (files : FileAccess (StateM ω))

theorem run_readText_logged (action path : String) (world : ω) (log : List FileRequest) :
    (files.logged.readText action path).run (world, log) =
      (((files.readText action path).run world).1, ((files.readText action path).run world).2,
        log ++ [.read path]) := by
  have read : (files.logged.read path).run (world, log) =
      (((files.read path).run world).1, ((files.read path).run world).2, log ++ [.read path]) := rfl
  simp only [readText, run_stateM_bind, read]
  rcases (files.read path).run world with ⟨fault | bytes, after⟩
  · rfl
  · cases found : String.fromUTF8? bytes <;> simp only [found] <;> rfl

theorem run_script_logged (path : String) (world : ω) (log : List FileRequest) :
    (AnimationScript.ofFile files.logged path).run (world, log) =
      (((AnimationScript.ofFile files path).run world).1, ((AnimationScript.ofFile files path).run world).2,
        log ++ [.read path]) := by
  simp only [AnimationScript.ofFile, run_stateM_bind, run_readText_logged]
  rfl

end FileAccess

namespace CommandLine

variable {ω : Type}

def Report.delivered (output : Option String) (page : String) : Report :=
  match output with
  | none => { output := page }
  | some path => { errors := ["wrote " ++ path] }

/-- What is asked of the files for a page that is printed or written. -/
def deliveries (output : Option String) (page : String) : List FileRequest :=
  match output with
  | none => []
  | some path => (parent? path).toList.map .createDirectory ++ [.write path page]

/-- The directory around a path is made, if it has one. -/
def surround (files : FileAccess (StateM ω)) (path : String) (world : ω) : Except FileFault Unit × ω :=
  match parent? path with
  | none => (.ok (), world)
  | some directory => (files.createDirectory directory).run world

/-- Whether a page can be delivered: the directory around the output can be made, and then the page written. -/
def Takes (files : FileAccess (StateM ω)) (output : Option String) (page : String) (world : ω) : Prop :=
  ∀ path, output = some path →
    (surround files path world).1 = .ok () ∧ ((files.write path page).run (surround files path world).2).1 = .ok ()

/-- The world that a page leaves behind that was printed or written. -/
def afterwards (files : FileAccess (StateM ω)) (output : Option String) (page : String) (world : ω) : ω :=
  match output with
  | none => world
  | some path => ((files.write path page).run (surround files path world).2).2

theorem run_deliver {files : FileAccess (StateM ω)} {output : Option String} {value : Json.Value} {world : ω}
    (takes : Takes files output (value.page ++ "\n") world) :
    (deliver files output value).run world =
      (.delivered output (value.page ++ "\n"), afterwards files output (value.page ++ "\n") world) := by
  cases output with
  | none => rfl
  | some path =>
      obtain ⟨made, written⟩ := takes path rfl
      cases around : parent? path with
      | none =>
          simp only [surround, around] at written
          simp only [deliver, afterwards, surround, around, run_stateM_bind, written]
          rfl
      | some directory =>
          simp only [surround, around] at made written
          simp only [deliver, afterwards, surround, around, run_stateM_bind, made, written]
          rfl

section
variable (files : FileAccess (StateM ω)) (world : ω) (log : List FileRequest)

theorem surround_logged (path : String) :
    surround files.logged path (world, log) =
      ((surround files path world).1, (surround files path world).2,
        log ++ (parent? path).toList.map .createDirectory) := by
  rw [surround, surround]
  cases parent? path with
  | none => simp
  | some directory => rfl

theorem takes_logged {output : Option String} {page : String} (takes : Takes files output page world) :
    Takes files.logged output page (world, log) := by
  intro path same
  rw [surround_logged]
  exact takes path same

theorem afterwards_logged (output : Option String) (page : String) :
    afterwards files.logged output page (world, log) =
      (afterwards files output page world, log ++ deliveries output page) := by
  cases output with
  | none => rw [deliveries, List.append_nil]; rfl
  | some path =>
      rw [afterwards, surround_logged, deliveries, ← List.append_assoc]
      rfl

end

section
variable {files : FileAccess (StateM ω)} {input : String} {script : AnimationScript} {before during : ω}
  (reads : (AnimationScript.ofFile files input).run before = (.ok script, during)) (durationMs : Option UInt64)
  (output : Option String)
include reads

theorem run_animate_of_rejected {error : Error} (rejected : script.animations durationMs = .error error) :
    ((Command.animate input durationMs output).run files).run before =
      (.ofError (error.during ("apply animation script " ++ quotedPath input)), during) := by
  simp only [Command.run, run_stateM_bind, reads, rejected]
  rfl

theorem run_animate_of_accepted {animations : List (TimedTrack Float)}
    (accepted : script.animations durationMs = .ok animations) :
    ((Command.animate input durationMs output).run files).run before =
      (deliver files output (.list (animations.map TimedTrack.toValue))).run during := by
  simp only [Command.run, run_stateM_bind, reads, accepted]

end

/-- For every script, the animations that the program works out are those that a new builder for the target of the
script, configured from the script, leaves on a timeline of its own when it is started; a duration of the command line
takes the place of theirs.  If the builder is not configured, that is what the program fails with, and it has only read
the script.  Otherwise these animations are what it prints or writes. -/
theorem animate_writes_started (script : AnimationScript) (durationMs : Option UInt64) :
    let configured := script.configure (AnimationBuilder.ofTarget script.target)
    let started := (configured.1.start Timeline.record).run.run {}
    let animations := AnimationScript.retimed durationMs started.2.created.toList
    let page := (Json.Value.list (animations.map TimedTrack.toValue)).page ++ "\n"
    started.1 = .ok () ∧
    script.animations durationMs = configured.2.map (fun _ => animations) ∧
    ∀ (files : FileAccess (StateM ω)) (input : String) (output : Option String) (before during : ω),
      (AnimationScript.ofFile files input).run before = (.ok script, during) →
      let command := Command.animate input durationMs output
      (∀ error, configured.2 = .error error →
        let report := Report.ofError (error.during ("apply animation script " ++ quotedPath input))
        report.exitCode = 1 ∧ (command.run files).run before = (report, during) ∧
          ∀ log, (command.run files.logged).run (before, log) = (report, during, log ++ [.read input])) ∧
      (configured.2 = .ok () → Takes files output page during →
        let report := Report.delivered output page
        let after := afterwards files output page during
        report.exitCode = 0 ∧ (command.run files).run before = (report, after) ∧
          ∀ log, (command.run files.logged).run (before, log) =
            (report, after, log ++ .read input :: deliveries output page)) := by
  intro configured started animations page
  obtain ⟨timeline, answered, created⟩ := configured.1.run_start_record
  have bound : animations = AnimationScript.retimed durationMs (configured.1.bound configured.1.duration) := by
    simp only [animations, started, answered, created]
  have all : script.animations durationMs = configured.2.map (fun _ => animations) := by
    rw [bound]
    exact script.animations_eq durationMs
  refine ⟨by simp only [started, answered], all, ?_⟩
  intro files input output before during reads command
  have readsLogged (log : List FileRequest) :
      (AnimationScript.ofFile files.logged input).run (before, log) = (.ok script, during, log ++ [.read input]) := by
    rw [FileAccess.run_script_logged, reads]
  refine ⟨?_, ?_⟩
  · intro error failed report
    rw [failed] at all
    exact ⟨rfl, run_animate_of_rejected reads durationMs output all, fun log =>
      run_animate_of_rejected (readsLogged log) durationMs output all⟩
  · intro succeeded takes report after
    rw [succeeded] at all
    refine ⟨?_, ?_, ?_⟩
    · cases output <;> rfl
    · exact (run_animate_of_accepted reads durationMs output all).trans (run_deliver takes)
    · intro log
      refine (run_animate_of_accepted (readsLogged log) durationMs output all).trans ?_
      rw [run_deliver (takes_logged files during _ takes), afterwards_logged, List.append_assoc]
      rfl

/-- Files that all hold one text and take any other. -/
def holding (text : String) : FileAccess (StateM Unit) where
  read _ := return .ok text.toUTF8
  createDirectory _ := return .ok ()
  write _ _ := return .ok ()

theorem run_script_holding (text path : String) :
    (AnimationScript.ofFile (holding text) path).run () = (AnimationScript.ofText text, ()) := by
  have whole : String.fromUTF8? text.toUTF8 = some text := dif_pos text.isValidUTF8
  have read : ((holding text).read path).run () = (.ok text.toUTF8, ()) := rfl
  simp only [AnimationScript.ofFile, FileAccess.readText, run_stateM_bind, read, whole]
  rfl

def fade : AnimationScript where
  durationMs := some 20
  steps := [.opacity { goal := 0.5 }]

/-- A script for the size of a target that has none. -/
def growth : AnimationScript where
  steps := [.sizeAxis .x { goal := 2 }]

theorem animate_writes_started_of_fade_and_growth :
    let page := (Json.Value.list [TimedTrack.toValue
      ⟨.opacity, none, 0.5, .linear, .ofMilliseconds 5, .ofMilliseconds 0⟩]).page ++ "\n"
    ((AnimationScript.ofFile (holding fade.toValue.line) "in").run () = (.ok fade, ()) ∧
      Takes (holding fade.toValue.line) (some "out") page () ∧
      ((Command.animate "in" (some 5) (some "out")).run (holding fade.toValue.line).logged).run ((), []) =
        ({ errors := ["wrote out"] }, (), [.read "in", .createDirectory "", .write "out" page])) ∧
    (AnimationScript.ofFile (holding growth.toValue.line) "in").run () = (.ok growth, ()) ∧
      ((Command.animate "in" none none).run (holding growth.toValue.line).logged).run ((), []) =
        (.ofError (Error.noLayoutSize.during "apply animation script 'in'"), (), [.read "in"]) := by
  have readFade : AnimationScript.ofText fade.toValue.line = .ok fade := by decide +kernel
  have readGrowth : AnimationScript.ofText growth.toValue.line = .ok growth := by decide +kernel
  have fades := (run_script_holding fade.toValue.line "in").trans (congrArg (·, ()) readFade)
  have grows := (run_script_holding growth.toValue.line "in").trans (congrArg (·, ()) readGrowth)
  have takes (page : String) : Takes (holding fade.toValue.line) (some "out") page () := by
    rintro path ⟨⟩
    exact ⟨by decide +kernel, rfl⟩
  obtain ⟨_, _, written⟩ := animate_writes_started fade (some 5)
  obtain ⟨_, _, refused⟩ := animate_writes_started growth none
  refine ⟨⟨fades, takes _, ?_⟩, grows, ?_⟩
  · exact ((written _ "in" (some "out") () () fades).2 rfl (takes _)).2.2 []
  · exact ((refused _ "in" none () () grows).1 Error.noLayoutSize rfl).2.2 []

end CommandLine

end VisualEffects

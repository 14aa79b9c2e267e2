import GeoPolicy.CommandLine.Run

/-!
# Plans carried out

A plan ends well exactly if its answer is good and all its texts can be written, one after another.
Then what is printed is all texts for the output, and a file holds the last text that goes there, or
what it held before. Where the paths lead is known from the start, since no write changes that.

## Main definitions

* `CommandLine.Accepts` — all texts of steps can be written.
* `CommandLine.Step.text`, `CommandLine.Step.place` — the text of a step and where it goes.
* `CommandLine.Step.effect` — what a step leaves behind.
* `CommandLine.Outcome.after` — what steps leave behind, one after another.
-/

namespace GeoPolicy

namespace CommandLine

open FileSystem LawfulFileSystem

theorem Place.isOutput_eq_true_iff {φ : Type} {p : Place φ} : p.isOutput = true ↔ p = .output := by
  cases p <;> simp [isOutput]

namespace Outcome

variable {σ φ : Type}

theorem files_deliver (o : Outcome σ) (text : String) (p : Place φ) :
    (o.deliver text p).files = o.files := by
  cases p <;> rfl

theorem stdout_deliver (o : Outcome σ) (text : String) (p : Place φ) :
    (o.deliver text p).stdout = if p.isOutput then o.stdout ++ text else o.stdout := by
  cases p <;> rfl

end Outcome

section FileSystems

variable {σ φ : Type} [FileSystem σ φ]

/-! ## Steps -/

/-- A file system takes all texts of steps, one after another. -/
def Accepts : σ → List Step → Prop
  | _, [] => True
  | files, .print _ :: rest => Accepts files rest
  | files, .write path text :: rest =>
    (write files path text.toUTF8).1 = .ok () ∧ Accepts (write files path text.toUTF8).2 rest

namespace Step

/-- The text that a step brings somewhere. -/
def text : Step → String
  | print text | write _ text => text

/-- Where a step brings its text. -/
def place (files : σ) : Step → Place φ
  | print _ => .output
  | write path _ => FileSystem.place files path

/-- The files after a step. -/
def filesAfter (files : σ) : Step → σ
  | print _ => files
  | write path text => (FileSystem.write files path text.toUTF8).2

/-- What a step leaves behind, if its text can be written. -/
def effect (o : Outcome σ) (step : Step) : Outcome σ :=
  { o with files := step.filesAfter o.files }.deliver step.text (step.place o.files)

theorem files_effect (o : Outcome σ) (step : Step) :
    (step.effect o).files = step.filesAfter o.files :=
  Outcome.files_deliver ..

theorem stdout_effect (o : Outcome σ) (step : Step) :
    (step.effect o).stdout =
      if (step.place o.files).isOutput then o.stdout ++ step.text else o.stdout :=
  Outcome.stdout_deliver ..

end Step

/-- What steps leave behind, one after another. -/
def Outcome.after (o : Outcome σ) (steps : List Step) : Outcome σ :=
  steps.foldl Step.effect o

theorem Outcome.after_cons (o : Outcome σ) (step : Step) (rest : List Step) :
    o.after (step :: rest) = (step.effect o).after rest :=
  rfl

theorem accepts_effect_of_cons {o : Outcome σ} {step : Step} {rest : List Step}
    (h : Accepts o.files (step :: rest)) : Accepts (step.effect o).files rest := by
  rw [Step.files_effect]
  cases step with
  | print text => exact h
  | write path text => exact h.2

/-! ## Plans -/

theorem Plan.finish_cons_of_accepts (success : Bool) {o : Outcome σ} {step : Step}
    {rest : List Step} (h : Accepts o.files (step :: rest)) :
    finish success o (step :: rest) = finish success (step.effect o) rest := by
  cases step with
  | print text => rfl
  | write path text =>
    obtain ⟨hwrite, -⟩ := h
    have hpair : write o.files path text.toUTF8 =
        (.ok (), (write o.files path text.toUTF8).2) :=
      Prod.ext hwrite rfl
    rw [finish, hpair]
    rfl

/-- A plan whose texts can be written is carried out as a whole. -/
theorem Plan.finish_of_accepts (success : Bool) {o : Outcome σ} {steps : List Step}
    (h : Accepts o.files steps) :
    finish success o steps = { o.after steps with code := if success then 0 else 1 } := by
  induction steps generalizing o with
  | nil => rfl
  | cons step rest ih =>
    rw [finish_cons_of_accepts success h, ih (accepts_effect_of_cons h), Outcome.after_cons]

/-- A plan is broken off where a text cannot be written, with an error. -/
theorem Plan.code_finish_of_not_accepts (success : Bool) {o : Outcome σ} {steps : List Step}
    (h : ¬Accepts o.files steps) : (finish success o steps).code = 1 := by
  induction steps generalizing o with
  | nil => exact absurd trivial h
  | cons step rest ih =>
    cases step with
    | print text => exact ih h
    | write path text =>
      rw [finish]
      split
      · next files hwrite =>
        refine ih fun hrest => h ⟨by rw [hwrite], ?_⟩
        rw [Outcome.files_deliver] at hrest
        rw [hwrite]
        exact hrest
      · rfl

/-! ## Runs -/

section Runs

variable {now : Timestamp} {transport : Http.Transport} {files : σ} {args : List String}
  {command : Command}

theorem run_of_plan (hargs : Command.ofArguments args = .ok command) {plan : Plan}
    (hplan : command.plan { now, transport, read := read files } = .ok plan) :
    run now transport files args = Plan.finish plan.success { files } plan.steps := by
  rw [run, hargs]
  dsimp only
  rw [hplan]

theorem run_of_error (hargs : Command.ofArguments args = .ok command) {e : Error}
    (hplan : command.plan { now, transport, read := read files } = .error e) :
    run now transport files args = { code := 1, stderr := errorLine e, files } := by
  rw [run, hargs]
  dsimp only
  rw [hplan]

end Runs

/-! ## Files -/

variable [LawfulFileSystem σ]

theorem Step.place_effect (o : Outcome σ) (step other : Step) :
    other.place (step.effect o).files = other.place o.files := by
  rw [files_effect]
  cases other with
  | print text => rfl
  | write path text =>
    cases step with
    | print => rfl
    | write => exact place_write ..

theorem Step.content?_effect_of_ne {o : Outcome σ} {step : Step} {file : φ}
    (h : step.place o.files ≠ .file file) :
    content? (step.effect o).files file = content? o.files file := by
  rw [files_effect]
  cases step with
  | print => rfl
  | write path text => exact content?_write_of_ne text.toUTF8 h

theorem Step.content?_effect {o : Outcome σ} {step : Step} {rest : List Step} {file : φ}
    (haccepts : Accepts o.files (step :: rest)) (h : step.place o.files = .file file) :
    content? (step.effect o).files file = some step.text.toUTF8 := by
  rw [files_effect]
  cases step with
  | print => cases h
  | write path text => exact content?_write h haccepts.1

namespace Outcome

/-- All paths lead to where they led before. -/
theorem place_after (o : Outcome σ) (steps : List Step) (path : String) :
    place (o.after steps).files path = place o.files path := by
  induction steps generalizing o with
  | nil => rfl
  | cons step rest ih =>
    rw [after_cons, ih]
    exact Step.place_effect o step (.write path "")

/-- All texts for the output are printed, in their order. -/
theorem stdout_after (o : Outcome σ) (steps : List Step) :
    (o.after steps).stdout = o.stdout ++
      String.join ((steps.filter fun step => (step.place o.files).isOutput).map Step.text) := by
  induction steps generalizing o with
  | nil => exact String.append_empty.symm
  | cons step rest ih =>
    rw [after_cons, ih, Step.stdout_effect]
    simp only [Step.place_effect]
    cases h : (step.place o.files).isOutput
    · simp only [List.filter_cons, h, Bool.false_eq_true, if_false]
    · simp only [List.filter_cons, h, if_true, List.map_cons, String.join_cons,
        String.append_assoc]

/-- A file that no text goes to holds what it held. -/
theorem content?_after_of_forall_ne {o : Outcome σ} {steps : List Step} {file : φ}
    (h : ∀ step ∈ steps, step.place o.files ≠ .file file) :
    content? (o.after steps).files file = content? o.files file := by
  induction steps generalizing o with
  | nil => rfl
  | cons step rest ih =>
    obtain ⟨hstep, hrest⟩ := List.forall_mem_cons.1 h
    rw [after_cons, ih, Step.content?_effect_of_ne hstep]
    exact fun other hmem => Step.place_effect o step other ▸ hrest other hmem

/-- A file holds the last text that goes to it. -/
theorem content?_after {o : Outcome σ} (before after : List Step) {step : Step} {file : φ}
    (haccepts : Accepts o.files (before ++ step :: after))
    (hstep : step.place o.files = .file file)
    (hafter : ∀ later ∈ after, later.place o.files ≠ .file file) :
    content? (o.after (before ++ step :: after)).files file = some step.text.toUTF8 := by
  induction before generalizing o with
  | nil =>
    rw [List.nil_append, after_cons, content?_after_of_forall_ne,
      Step.content?_effect haccepts hstep]
    exact fun later hmem => Step.place_effect o step later ▸ hafter later hmem
  | cons first before ih =>
    rw [List.cons_append, after_cons]
    refine ih (accepts_effect_of_cons haccepts) ?_ fun later hmem => ?_
    · rw [Step.place_effect, hstep]
    · rw [Step.place_effect]
      exact hafter later hmem

end Outcome

end FileSystems

end CommandLine

end GeoPolicy

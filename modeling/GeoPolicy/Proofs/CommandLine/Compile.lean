import GeoPolicy.Proofs.CommandLine.Disk
import GeoPolicy.Proofs.CommandLine.Plan
import GeoPolicy.Proofs.Draft
import GeoPolicy.Proofs.Remote

/-!
# The command that compiles

Everything that can be wrong with the policy or the time is noticed before anything is printed or
written. If nothing is, the script and the ruleset of one compilation are brought to where they are
asked for, and no other file changes. The ruleset is written with line feeds and indentation, and
is read back from that text. This holds on every file system that keeps what is written.

## Main definitions

* `CommandLine.PolicySettings.Resolves` — what settings make of the policy in their file.
* `CommandLine.CompileFault` — what keeps a policy from being compiled.
* `CommandLine.destination` — where a script goes.
* `CommandLine.Holds` — what a file holds, and what is read at a path to it.
* `CommandLine.Outcome.Delivers` — what is left behind by a policy that is compiled.
-/

namespace GeoPolicy

open Script

theorem exists_eq_ok_iff {ε α : Type} {x : Except ε α} :
    (∃ a, x = .ok a) ↔ ∀ e, x ≠ .error e := by
  cases x <;> simp

/-- Exactly the policies with an implemented backend are compiled. -/
theorem Compiler.exists_compile_eq_ok_iff {t : Timestamp} {p : Policy} :
    (∃ c, compile t p = .ok c) ↔ p.backend.isImplemented = true := by
  constructor
  · rintro ⟨c, hc⟩
    obtain ⟨variant, hvariant, -⟩ := compile_eq_ok_iff.1 hc
    rw [(Variant.ofPolicy_eq_ok_iff.1 hvariant).1]
    cases variant <;> rfl
  · intro h
    obtain ⟨variant, hvariant⟩ := Variant.exists_ofPolicy_eq_ok h
    exact ⟨_, compile_eq_ok_iff.2 ⟨variant, hvariant, rfl⟩⟩

theorem PolicyDraft.exists_codes_of_build {d : PolicyDraft} {p : Policy} (h : d.build = .ok p) :
    ∃ codes, d.regions.mapM RegionCode.parse = .ok codes ∧ p.regions = distinct codes ∧
      p.backend = d.backend ∧ p.action = d.action ∧ p.useAddressSet = d.useAddressSet ∧
      p.useIPv6 = d.useIPv6 := by
  cases hcodes : d.regions.mapM RegionCode.parse with
  | error e => simp [build_of_error hcodes] at h
  | ok codes =>
    obtain rfl := Except.ok.inj ((build_of_codes hcodes).symm.trans h)
    exact ⟨codes, rfl, rfl, rfl, rfl, rfl, rfl⟩

namespace CommandLine

/-! ## Resolved settings -/

/-- What settings make of the policy in their file: regions that are given replace those of the
file, a backend or an action that is given replaces the one of the file, sets can be switched off
and IPv6 can be switched on. -/
structure PolicySettings.Resolves (s : PolicySettings) (base p : Policy) : Prop where
  regions_of_nil : s.regions = [] → p.regions = base.regions
  regions_of_ne_nil : s.regions ≠ [] → ∃ codes : List RegionCode,
    List.Forall₂ (fun text r => RegionCode.parse text = .ok r) s.regions codes ∧
      FirstOccurrences codes p.regions
  backend : p.backend = s.backend.getD base.backend
  action : p.action = s.action.getD base.action
  useAddressSet : p.useAddressSet = (base.useAddressSet && !s.noIpset)
  useIPv6 : p.useIPv6 = (base.useIPv6 || s.ipv6)

theorem PolicySettings.resolves_of_policy {s : PolicySettings} {around : Surroundings}
    {p : Policy} (h : s.policy around = .ok p) :
    ∃ base, around.loaded s.file = .ok base ∧ s.Resolves base p := by
  rw [policy_eq_bind, bind_eq_ok_iff] at h
  obtain ⟨base, hbase, hbuild⟩ := h
  obtain ⟨codes, hcodes, hregions, hbackend, haction, hset, hv6⟩ :=
    PolicyDraft.exists_codes_of_build hbuild
  refine ⟨base, hbase, ⟨fun hnil => ?_, fun hne => ?_, hbackend, haction, hset, hv6⟩⟩
  · simp only [hnil, List.isEmpty_nil, if_true, RegionCode.mapM_parse_text] at hcodes
    rw [hregions, ← Except.ok.inj hcodes, distinct_eq_self base.regions_nodup]
  · rw [if_neg (by simpa using hne), mapM_eq_ok_iff] at hcodes
    exact ⟨codes, hcodes, hregions ▸ firstOccurrences_distinct codes⟩

/-- Settings make a policy exactly if their file is loaded and their own texts are codes. -/
theorem PolicySettings.exists_policy_eq_ok_iff {s : PolicySettings} {around : Surroundings} :
    (∃ p, s.policy around = .ok p) ↔ (∃ base, around.loaded s.file = .ok base) ∧
      ∀ text ∈ s.regions, ∃ r, RegionCode.parse text = .ok r := by
  rw [policy_eq_bind]
  cases around.loaded s.file with
  | error e =>
    constructor
    · rintro ⟨p, hp⟩
      cases hp
    · rintro ⟨⟨base, hbase⟩, -⟩
      cases hbase
  | ok base =>
    change (∃ p, PolicyDraft.build _ = .ok p) ↔ _
    rw [PolicyDraft.exists_build_eq_ok_iff]
    cases hregions : s.regions with
    | nil =>
      have hloaded : ∀ text ∈ base.regions.map RegionCode.text,
          ∃ r, RegionCode.parse text = .ok r := by
        intro text htext
        obtain ⟨r, -, rfl⟩ := List.mem_map.1 htext
        exact ⟨r, r.parse_text⟩
      exact ⟨fun _ => ⟨⟨base, rfl⟩, List.forall_mem_nil _⟩, fun _ => hloaded⟩
    | cons text texts => exact ⟨fun h => ⟨⟨base, rfl⟩, h⟩, fun h => h.2⟩

/-! ## Faults -/

/-- What keeps a policy from being compiled. -/
inductive CompileFault (around : Surroundings) (settings : PolicySettings)
    (time : Option String) : Prop where
  /-- The policy file cannot be loaded. -/
  | file {e : Error} (h : around.loaded settings.file = .error e)
  /-- A text that is given as a region is no code. -/
  | region {text : String} (hmem : text ∈ settings.regions) {e : Error}
    (h : RegionCode.parse text = .error e)
  /-- The text that is given as the time denotes no time. -/
  | time {text : String} (htime : time = some text) {fault : Timestamp.Fault}
    (h : Timestamp.parse text = .error fault)
  /-- No scripts are generated for the backend. -/
  | backend {base : Policy} (hbase : around.loaded settings.file = .ok base)
    (h : (settings.backend.getD base.backend).isImplemented = false)

theorem exists_timestamp_eq_ok_iff {around : Surroundings} {time : Option String} :
    (∃ t, timestamp around time = .ok t) ↔ ∀ text ∈ time, ∃ t, Timestamp.parse text = .ok t := by
  cases time with
  | none => simp [timestamp]
  | some text => cases h : Timestamp.parse text <;> simp [timestamp, h]

/-! ## Plans -/

/-- The step that brings out a script. -/
def scriptStep (output : Option String) (script : String) : Step :=
  match output with
  | none => .print script
  | some path => .write path script

/-- The plan that brings out a script and its ruleset. -/
def compiledPlan (output ruleset : Option String) (c : CompiledPolicy) : Plan where
  steps :=
    scriptStep output c.script :: ruleset.toList.map (.write · c.ruleset.toJson.pretty)
  success := true

theorem compilePlan_eq_ok_iff {around : Surroundings} {settings : PolicySettings}
    {output ruleset time : Option String} {plan : Plan} :
    compilePlan around settings output ruleset time = .ok plan ↔
      ∃ p t c, settings.policy around = .ok p ∧ timestamp around time = .ok t ∧
        Compiler.compile t p = .ok c ∧ plan = compiledPlan output ruleset c := by
  simp only [compilePlan, bind_eq_ok_iff]
  constructor
  · rintro ⟨p, hp, t, ht, c, hc, hplan⟩
    exact ⟨p, t, c, hp, ht, hc, (Except.ok.inj hplan).symm⟩
  · rintro ⟨p, t, c, hp, ht, hc, rfl⟩
    exact ⟨p, hp, t, ht, c, hc, rfl⟩

/-- Exactly the faults keep a plan from being made. -/
theorem compileFault_iff {around : Surroundings} {settings : PolicySettings}
    {time : Option String} :
    CompileFault around settings time ↔ ¬∃ p t c, settings.policy around = .ok p ∧
      timestamp around time = .ok t ∧ Compiler.compile t p = .ok c := by
  constructor
  · rintro hfault ⟨p, t, c, hp, ht, hc⟩
    obtain ⟨-, hregions⟩ := PolicySettings.exists_policy_eq_ok_iff.1 ⟨p, hp⟩
    obtain ⟨base, hbase, hresolves⟩ := PolicySettings.resolves_of_policy hp
    cases hfault with
    | file h => cases hbase.symm.trans h
    | region hmem h =>
      obtain ⟨r, hr⟩ := hregions _ hmem
      cases hr.symm.trans h
    | time htime h =>
      obtain ⟨t', ht'⟩ := exists_timestamp_eq_ok_iff.1 ⟨t, ht⟩ _ htime
      cases ht'.symm.trans h
    | backend hbase' h =>
      obtain rfl := Except.ok.inj (hbase.symm.trans hbase')
      rw [← hresolves.backend, Compiler.exists_compile_eq_ok_iff.1 ⟨c, hc⟩] at h
      cases h
  · intro h
    by_contra hfault
    -- Every stage succeeds, since the error of each is a fault.
    have hbase : ∃ base, around.loaded settings.file = .ok base :=
      exists_eq_ok_iff.2 fun e he => hfault (.file he)
    have hregions : ∀ text ∈ settings.regions, ∃ r, RegionCode.parse text = .ok r :=
      fun text hmem => exists_eq_ok_iff.2 fun e he => hfault (.region hmem he)
    have htime : ∀ text ∈ time, ∃ t, Timestamp.parse text = .ok t :=
      fun text htext => exists_eq_ok_iff.2 fun e he => hfault (.time htext he)
    obtain ⟨p, hp⟩ := PolicySettings.exists_policy_eq_ok_iff.2 ⟨hbase, hregions⟩
    obtain ⟨t, ht⟩ := exists_timestamp_eq_ok_iff.2 htime
    obtain ⟨base, hbase, hresolves⟩ := PolicySettings.resolves_of_policy hp
    have hbackend : p.backend.isImplemented = true := by
      rw [hresolves.backend, ← Bool.not_eq_false]
      exact fun hnot => hfault (.backend hbase hnot)
    obtain ⟨c, hc⟩ := Compiler.exists_compile_eq_ok_iff.2 hbackend
    exact h ⟨p, t, c, hp, ht, hc⟩

/-! ## Outcomes -/

section FileSystems

open FileSystem LawfulFileSystem

variable {σ φ : Type} [FileSystem σ φ]

/-- Where a script goes: to the output, unless a path is given. -/
def destination (files : σ) : Option String → Place φ
  | none => .output
  | some path => place files path

/-- A file holds a text, and nothing else is read at a path to it. -/
structure Holds (files : σ) (path : String) (file : φ) (text : String) : Prop where
  content : content? files file = some text.toUTF8
  read : ∀ content, FileSystem.read files path = .ok content → content = text.toUTF8

/-- What is left behind by a policy that is compiled: the script where it is asked for, the
ruleset of the same compilation where that is asked for, and every other file as it was. -/
structure Outcome.Delivers (o : Outcome σ) (files : σ) (output ruleset : Option String)
    (c : CompiledPolicy) : Prop where
  printed : destination files output = .output → (∀ path ∈ ruleset, place files path ≠ .output) →
    o.stdout = c.script
  silent : destination files output ≠ .output → (∀ path ∈ ruleset, place files path ≠ .output) →
    o.stdout = ""
  /-- A ruleset that is printed as well follows the script. -/
  printed_both : destination files output = .output →
    ∀ path ∈ ruleset, place files path = .output →
      ∃ text, o.stdout = c.script ++ text ∧ decode Ruleset.ofJson? text = .ok c.ruleset
  places : ∀ path, place o.files path = place files path
  script : ∀ path ∈ output, ∀ file, place files path = .file file →
    Holds o.files path file c.script
  rules : ∀ path ∈ ruleset, ∀ file, place files path = .file file →
    ∃ text, Holds o.files path file text ∧ decode Ruleset.ofJson? text = .ok c.ruleset
  others : ∀ file, destination files output ≠ .file file →
    (∀ path ∈ ruleset, place files path ≠ .file file) →
      content? o.files file = content? files file

theorem place_scriptStep (files : σ) (output : Option String) (script : String) :
    (scriptStep output script).place files = destination files output := by
  cases output <;> rfl

theorem text_scriptStep (output : Option String) (script : String) :
    (scriptStep output script).text = script := by
  cases output <;> rfl

/-- The steps after the one with the script bring out the ruleset. -/
theorem exists_of_mem_rules (files : σ) {ruleset : Option String} {json : String} {step : Step}
    (h : step ∈ ruleset.toList.map (.write · json)) :
    ∃ path ∈ ruleset, step.place files = place files path := by
  obtain ⟨path, hpath, rfl⟩ := List.mem_map.1 h
  exact ⟨path, Option.mem_toList.1 hpath, rfl⟩

variable [LawfulFileSystem σ]

theorem stdout_compiledPlan (files : σ) (output ruleset : Option String) (c : CompiledPolicy) :
    (Outcome.after { files } (compiledPlan output ruleset c).steps).stdout =
      (if (destination files output).isOutput then c.script else "") ++
        if ruleset.any fun path => (place files path).isOutput then c.ruleset.toJson.pretty
        else "" := by
  have hrules : ((ruleset.toList.map (Step.write · c.ruleset.toJson.pretty)).filter fun step =>
      (step.place files).isOutput).map Step.text =
        if ruleset.any fun path => (place files path).isOutput then [c.ruleset.toJson.pretty]
        else [] := by
    cases ruleset with
    | none => rfl
    | some path =>
      simp only [Option.toList_some, List.map_cons, List.map_nil, Option.any_some,
        List.filter_cons, List.filter_nil, Step.place]
      split_ifs <;> rfl
  rw [Outcome.stdout_after, compiledPlan]
  simp only [List.filter_cons, place_scriptStep, String.empty_append]
  split_ifs with hscript <;> simp [*, text_scriptStep]

theorem Holds.of_content? {files : σ} {path : String} {file : φ} {text : String}
    (hplace : place files path = .file file) (h : content? files file = some text.toUTF8) :
    Holds files path file text :=
  ⟨h, fun _ hread => Option.some.inj ((content?_of_read hplace hread).symm.trans h)⟩

theorem delivers_compiledPlan {files : σ} {output ruleset : Option String} {c : CompiledPolicy}
    (haccepts : Accepts files (compiledPlan output ruleset c).steps)
    (hapart : ∀ a ∈ output, ∀ b ∈ ruleset, ∀ file, place files a = .file file →
      place files b ≠ .file file)
    (hc : ∀ rule ∈ c.ruleset.rules, rule.priority < 0x100000000) :
    Outcome.Delivers (Plan.finish true { files } (compiledPlan output ruleset c).steps)
      files output ruleset c := by
  have hjson : decode Ruleset.ofJson? c.ruleset.toJson.pretty = .ok c.ruleset :=
    decode_pretty c.ruleset.isPlain_toJson (Ruleset.ofJson?_toJson hc)
  rw [Plan.finish_of_accepts true haccepts]
  have hplaces := Outcome.place_after { files } (compiledPlan output ruleset c).steps
  have hstdout := stdout_compiledPlan files output ruleset c
  have hsilent : (∀ path ∈ ruleset, place files path ≠ .output) →
      (ruleset.any fun path => (place files path).isOutput) = false := by
    intro hrules
    rw [Bool.eq_false_iff, Ne, Option.any_eq_true]
    rintro ⟨path, hpath, houtput⟩
    exact hrules path hpath (Place.isOutput_eq_true_iff.1 houtput)
  constructor
  case printed =>
    intro hscript hrules
    rw [if_pos (Place.isOutput_eq_true_iff.2 hscript), hsilent hrules] at hstdout
    simpa using hstdout
  case silent =>
    intro hscript hrules
    rw [if_neg (Place.isOutput_eq_true_iff.not.2 hscript), hsilent hrules] at hstdout
    simpa using hstdout
  case printed_both =>
    rintro hscript path rfl hrules
    rw [if_pos (Place.isOutput_eq_true_iff.2 hscript), Option.any_some,
      if_pos (Place.isOutput_eq_true_iff.2 hrules)] at hstdout
    exact ⟨_, hstdout, hjson⟩
  case places => exact hplaces
  case script =>
    rintro path rfl file hfile
    refine Holds.of_content? ((hplaces path).trans hfile) ?_
    refine Outcome.content?_after [] _ haccepts hfile fun later hlater => ?_
    obtain ⟨other, hother, hplace⟩ := exists_of_mem_rules files hlater
    exact hplace ▸ hapart path rfl other hother file hfile
  case rules =>
    rintro path rfl file hfile
    refine ⟨_, Holds.of_content? ((hplaces path).trans hfile) ?_, hjson⟩
    exact Outcome.content?_after [_] [] haccepts hfile
      (List.forall_mem_nil _)
  case others =>
    intro file hscript hrules
    refine Outcome.content?_after_of_forall_ne (List.forall_mem_cons.2 ⟨?_, ?_⟩)
    · rwa [place_scriptStep]
    · intro step hstep
      obtain ⟨path, hpath, hplace⟩ := exists_of_mem_rules files hstep
      exact hplace ▸ hrules path hpath

/-! ## Runs -/

/-- A policy is compiled before anything is brought out. With a fault, the program ends with code 1
and has printed and written nothing. Without one, it ends with code 0 if all texts can be written,
and with code 1 otherwise. It leaves behind the script and the ruleset of one compilation, if they
can be written and go to different files. -/
theorem run_compile {args : List String} {settings : PolicySettings}
    {output ruleset time : Option String}
    (h : Command.ofArguments args = .ok (.compile settings output ruleset time))
    (now : Timestamp) (transport : Http.Transport) (files : σ) :
    let around : Surroundings := { now, transport, read := read files }
    let o := run now transport files args
    (CompileFault around settings time → o.code = 1 ∧ o.stdout = "" ∧ o.files = files) ∧
    (¬CompileFault around settings time →
      ∃ base p t c, around.loaded settings.file = .ok base ∧ settings.Resolves base p ∧
        timestamp around time = .ok t ∧ Compiler.compile t p = .ok c ∧
        (Accepts files (compiledPlan output ruleset c).steps → o.code = 0 ∧
          ((∀ a ∈ output, ∀ b ∈ ruleset, ∀ file, place files a = .file file →
            place files b ≠ .file file) → o.Delivers files output ruleset c)) ∧
        (¬Accepts files (compiledPlan output ruleset c).steps → o.code = 1)) := by
  intro around o
  rw [compileFault_iff, not_not]
  constructor
  · intro hfault
    cases hplan : compilePlan around settings output ruleset time with
    | error e =>
      have hrun : o = { code := 1, stderr := errorLine e, files } := run_of_error h hplan
      rw [hrun]
      exact ⟨rfl, rfl, rfl⟩
    | ok plan =>
      obtain ⟨p, t, c, hp, ht, hc, -⟩ := compilePlan_eq_ok_iff.1 hplan
      exact absurd ⟨p, t, c, hp, ht, hc⟩ hfault
  · rintro ⟨p, t, c, hp, ht, hc⟩
    obtain ⟨base, hbase, hresolves⟩ := PolicySettings.resolves_of_policy hp
    have hplan : compilePlan around settings output ruleset time =
        .ok (compiledPlan output ruleset c) :=
      compilePlan_eq_ok_iff.2 ⟨p, t, c, hp, ht, hc, rfl⟩
    have hrun : o = Plan.finish true { files } (compiledPlan output ruleset c).steps :=
      run_of_plan h hplan
    refine ⟨base, p, t, c, hbase, hresolves, ht, hc, fun haccepts => ⟨?_, fun hapart => ?_⟩,
      fun hrefuses => ?_⟩
    · rw [hrun, Plan.finish_of_accepts true haccepts]
      rfl
    · rw [hrun]
      exact delivers_compiledPlan haccepts hapart (Compiler.priority_lt_of_compile hc)
    · rw [hrun]
      exact Plan.code_finish_of_not_accepts true hrefuses

end FileSystems

/-- A disk takes all texts that go to files. -/
theorem Disk.accepts_of_place {d : Disk} {steps : List Step}
    (h : ∀ step ∈ steps, ∃ file, step.place d = .file file) : Accepts d steps := by
  induction steps generalizing d with
  | nil => trivial
  | cons step rest ih =>
    obtain ⟨⟨file, hfile⟩, hrest⟩ := List.forall_mem_cons.1 h
    cases step with
    | print => cases hfile
    | write path text =>
      refine ⟨congrArg Prod.fst (Disk.write_of_place hfile text.toUTF8), ih fun later hlater => ?_⟩
      obtain ⟨other, hother⟩ := hrest later hlater
      refine ⟨other, ?_⟩
      cases later with
      | print => cases hother
      | write => exact (LawfulFileSystem.place_write ..).trans hother

/-- A disk with an old script and some notes. -/
def oldDisk : Disk where
  entries :=
    [([], .directory false), (["home"], .directory false), (["home", "scripts"], .directory false),
      (["srv"], .directory false), (["home", "scripts", "policy.sh"], .file "old".toUTF8),
      (["home", "notes.txt"], .file "kept".toUTF8)]
  current := ["home"]

/-- Arguments that ask for a script and its ruleset. -/
def bothArguments : List String :=
  ["compile", "-r", "us", "-o", "./scripts/policy.sh", "--ruleset", "/srv/rules.json",
    "--timestamp", "2024-03-01T12:00:00Z"]

/-- A new script takes the place of an old one, the ruleset is made elsewhere, and notes are
kept. -/
theorem run_compile_both :
    ∃ p c, Compiler.compile ⟨1709294400, 0⟩ p = .ok c ∧
      let o := run ⟨0, 0⟩ .none oldDisk bothArguments
      o.code = 0 ∧ o.stdout = "" ∧ o.files.read "./scripts/policy.sh" = .ok c.script.toUTF8 ∧
        (∃ text : String, o.files.read "/srv/rules.json" = .ok text.toUTF8 ∧
          decode Ruleset.ofJson? text = .ok c.ruleset) ∧
        o.files.read "notes.txt" = .ok "kept".toUTF8 := by
  have hargs : Command.ofArguments bothArguments = .ok (.compile
      ⟨none, ["us"], none, none, false, false⟩ (some "./scripts/policy.sh")
      (some "/srv/rules.json") (some "2024-03-01T12:00:00Z")) := by decide
  have htime : Timestamp.parse "2024-03-01T12:00:00Z" = .ok ⟨1709294400, 0⟩ := by decide
  have hregion : RegionCode.parse "us" = .ok ⟨'U', 'S', rfl, rfl⟩ := by decide
  have hscript : FileSystem.place oldDisk "./scripts/policy.sh" =
      .file ["home", "scripts", "policy.sh"] := by decide
  have hrules : FileSystem.place oldDisk "/srv/rules.json" = .file ["srv", "rules.json"] := by
    decide
  have hnotes : FileSystem.place oldDisk "notes.txt" = .file ["home", "notes.txt"] := by decide
  have hcompiled := (run_compile hargs ⟨0, 0⟩ .none oldDisk).2 fun hfault => by
    cases hfault with
    | file h => cases h
    | region hmem h =>
      obtain rfl := List.mem_singleton.1 hmem
      cases hregion.symm.trans h
    | time htext h =>
      obtain rfl := Option.some.inj htext
      cases htime.symm.trans h
    | backend hbase h =>
      obtain rfl := Except.ok.inj hbase
      cases h
  obtain ⟨base, p, t, c, -, -, ht, hc, hend, -⟩ := hcompiled
  rw [timestamp, htime] at ht
  obtain rfl := Except.ok.inj ht
  obtain ⟨hcode, hdelivers⟩ := hend (Disk.accepts_of_place (List.forall_mem_cons.2
    ⟨⟨_, hscript⟩, List.forall_mem_cons.2 ⟨⟨_, hrules⟩, List.forall_mem_nil _⟩⟩))
  have h := hdelivers (by simp [hscript, hrules])
  obtain ⟨text, htext, hjson⟩ := h.rules _ rfl _ hrules
  have hread : ∀ {path file content}, FileSystem.place oldDisk path = .file file →
      FileSystem.content? (run ⟨0, 0⟩ .none oldDisk bothArguments).files file = some content →
        (run ⟨0, 0⟩ .none oldDisk bothArguments).files.read path = .ok content :=
    fun {path _ _} hplace hcontent =>
      Disk.read_of_content? ((h.places path).trans hplace) hcontent
  refine ⟨p, c, hc, hcode, h.silent (by simp [destination, hscript]) (by simp [hrules]),
    hread hscript (h.script _ rfl _ hscript).content, ⟨text, hread hrules htext.content, hjson⟩,
    hread hnotes ?_⟩
  rw [h.others _ (by simp [destination, hscript]) (by simp [hrules])]
  rfl

end CommandLine

end GeoPolicy

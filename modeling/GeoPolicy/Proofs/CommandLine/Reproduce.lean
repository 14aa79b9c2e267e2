import GeoPolicy.Proofs.CommandLine.Compile
import GeoPolicy.Proofs.Timestamp.RoundTrip

/-!
# Scripts from their own headers

The header of a script tells the time of its compilation, to the millisecond, and nothing else in
the script depends on the time. So the time in the header, given to the program in place of the
clock, makes the same script again.

## Main definitions

* `Script.generatedTime?` — the time that the header of a script tells.
* `CommandLine.Given.withTime` — given arguments with a time in front of them.
-/

namespace GeoPolicy

open Text

/-! ## Headers -/

namespace Script

/-- The words before the time in a script. -/
def generatedStart : String := "# Generated: "

/-- The time that the first line of a script with one tells. -/
def generatedTime? (script : String) : Option String :=
  (lines script.toList).findSome? fun line =>
    (line.dropPrefix? generatedStart.toList).map String.ofList

/-- The lines of a script before the one with the time. -/
def linesBeforeTime (p : Policy) : List Line :=
  (Compiler.header ⟨0, 0⟩ p).take 4

/-- The lines of a script after the one with the time. -/
def linesAfterTime (variant : Variant) (p : Policy) : List Line :=
  (Compiler.header ⟨0, 0⟩ p).drop 5 ++ variant.body p (Compiler.ranges variant p) ++
    Compiler.footer variant p

/-- Only one line of a script depends on the time. -/
theorem script_eq (t : Timestamp) (variant : Variant) (p : Policy) :
    Compiler.script t variant p =
      linesBeforeTime p ++ .comment ("Generated: " ++ t.text) :: linesAfterTime variant p := by
  rw [Compiler.script, linesBeforeTime, linesAfterTime]
  simp only [Compiler.header, List.take_succ_cons, List.take_zero, List.drop_succ_cons,
    List.drop_zero, List.cons_append, List.nil_append]
  rfl

theorem text_comment (words : String) : (Line.comment words).text = "# " ++ words := rfl

theorem text_comment_generated (t : Timestamp) :
    (Line.comment ("Generated: " ++ t.text)).text = generatedStart ++ t.text := by
  have hstart : "# " ++ "Generated: " = generatedStart := by decide
  rw [text_comment, ← hstart, String.append_assoc]

theorem text_script (t : Timestamp) (variant : Variant) (p : Policy) :
    text (Compiler.script t variant p) = textOf ((linesBeforeTime p).map Line.text ++
      (generatedStart ++ t.text) :: (linesAfterTime variant p).map Line.text) := by
  rw [script_eq, text, List.map_append, List.map_cons, text_comment_generated]

theorem dropPrefix?_linesBeforeTime (p : Policy) :
    ∀ l ∈ linesBeforeTime p, l.text.toList.dropPrefix? generatedStart.toList = none := by
  have hcomment : ∀ words : String, words.toList.head?.any (· ≠ 'G') = true →
      (Line.comment words).text.toList.dropPrefix? generatedStart.toList = none := by
    intro words hwords
    obtain ⟨c, rest, hwords'⟩ : ∃ c rest, words.toList = c :: rest :=
      List.exists_cons_of_ne_nil fun hnil => by simp [hnil] at hwords
    have hc : c ≠ 'G' := by simpa [hwords'] using hwords
    apply dropPrefix?_of_isPrefixOf_eq_false
    rw [text_comment, String.toList_append, hwords', generatedStart]
    simp [List.isPrefixOf, hc.symm]
  simp only [linesBeforeTime, Compiler.header, List.take_succ_cons, List.take_zero,
    List.forall_mem_cons]
  refine ⟨?_, ?_, ?_, ?_, List.forall_mem_nil _⟩
  · apply dropPrefix?_of_isPrefixOf_eq_false
    rfl
  · apply dropPrefix?_of_isPrefixOf_eq_false
    rfl
  · apply hcomment
    rw [toList_targetsComment]
    rfl
  · apply hcomment
    rw [toList_protocolsComment]
    rfl

/-- The header of a script tells the time of its compilation. -/
theorem generatedTime?_script (t : Timestamp) (variant : Variant) (p : Policy) :
    generatedTime? (text (Compiler.script t variant p)) = some t.text := by
  rw [generatedTime?, lines_text _ (wellFormed_script t variant p), script_eq, List.map_append,
    List.findSome?_append, List.map_cons, List.findSome?_cons, text_comment_generated,
    String.toList_append, dropPrefix?_append]
  have hbefore : ((linesBeforeTime p).map (·.text.toList)).findSome? (fun line =>
      (line.dropPrefix? generatedStart.toList).map String.ofList) = none := by
    rw [List.findSome?_eq_none_iff, List.forall_mem_map]
    intro l hl
    rw [dropPrefix?_linesBeforeTime p l hl, Option.map_none]
  rw [hbefore]
  simp

end Script

/-! ## Arguments -/

namespace CommandLine

theorem Shape.of_eq_operand {arg : String} (h : arg.toList.head? ≠ some '-') :
    Shape.of arg = .operand := by
  unfold Shape.of
  split
  · next hchars => exact absurd (by rw [hchars]; rfl) h
  · next hchars => exact absurd (by rw [hchars]; rfl) h
  · next hchars => exact absurd (by rw [hchars]; rfl) h
  · rfl

namespace Given

/-- Given arguments with a time in front of them. -/
def withTime (time : String) (g : Given) : Given :=
  { g with options := (.timestamp, time) :: g.options }

theorem has_withTime (time : String) (g : Given) (o : OptionName) :
    (g.withTime time).has o = (decide (OptionName.timestamp = o) || g.has o) := rfl

theorem addOption_withTime (time : String) {value : String} {g next : Given} {o : OptionName}
    (h : g.addOption o value = .ok next) (hnext : next.has .timestamp = false) :
    g.has .timestamp = false ∧
      (g.withTime time).addOption o value = .ok (next.withTime time) := by
  unfold addOption at h ⊢
  split at h
  · cases h
  split at h
  · cases h
  · next hhelp hfree =>
    obtain rfl := Except.ok.inj h
    have hhas : g.has .timestamp = false ∧ o ≠ .timestamp := by
      simpa [has, List.any_append] using hnext
    refine ⟨hhas.1, ?_⟩
    rw [if_neg hhelp, has_withTime, decide_eq_false hhas.2.symm, Bool.false_or, if_neg hfree]
    rfl

theorem addOperand_withTime {grammar : Grammar} (time : String) {arg : String} {g next : Given}
    (h : g.addOperand grammar arg = .ok next) :
    next.has .timestamp = g.has .timestamp ∧
      (g.withTime time).addOperand grammar arg = .ok (next.withTime time) := by
  unfold addOperand at h ⊢
  split at h
  · next hfits =>
    obtain rfl := Except.ok.inj h
    exact ⟨rfl, if_pos hfits⟩
  · cases h

/-- One more option and what is read after it go together with a time in front. -/
theorem bind_addOption_withTime (time : String) {value : String} {g result : Given} {o : OptionName}
    {next : Given → Except Refusal Given} (h : (g.addOption o value >>= next) = .ok result)
    (hnext : ∀ g, next g = .ok result →
      g.has .timestamp = false ∧ next (g.withTime time) = .ok (result.withTime time)) :
    g.has .timestamp = false ∧
      ((g.withTime time).addOption o value >>= next) = .ok (result.withTime time) := by
  obtain ⟨g', hadd, hrest⟩ := bind_eq_ok_iff.1 h
  obtain ⟨hfree, hmore⟩ := hnext g' hrest
  obtain ⟨hbefore, hadd'⟩ := addOption_withTime time hadd hfree
  exact ⟨hbefore, bind_eq_ok_iff.2 ⟨_, hadd', hmore⟩⟩

/-- Arguments without a time are read the same after one. -/
theorem read_withTime {grammar : Grammar} (time : String) {isSeparated : Bool} {g result : Given}
    {args : List String} (h : read grammar isSeparated g args = .ok result)
    (hresult : result.has .timestamp = false) :
    g.has .timestamp = false ∧
      read grammar isSeparated (g.withTime time) args = .ok (result.withTime time) := by
  fun_induction read grammar isSeparated g args with
  | case1 isSeparated g hcount =>
    obtain rfl := Except.ok.inj h
    exact ⟨hresult, if_pos hcount⟩
  | case3 isSeparated g arg rest hshape ih =>
    rw [read, hshape]
    exact ih h
  | case4 isSeparated g arg rest hshape ih =>
    obtain ⟨next, hnext, hread⟩ := bind_eq_ok_iff.1 h
    obtain ⟨hhas, hmore⟩ := ih next hread
    obtain ⟨hsame, hadd⟩ := addOperand_withTime time hnext
    refine ⟨hsame ▸ hhas, ?_⟩
    rw [read, hshape]
    exact bind_eq_ok_iff.2 ⟨_, hadd, hmore⟩
  | case6 isSeparated g arg rest o value hsep hop hoption ih =>
    obtain ⟨hfree, hmore⟩ := bind_addOption_withTime time h ih
    refine ⟨hfree, ?_⟩
    rw [read.eq_2]
    split
    · next hshape => exact absurd hshape hsep
    · next hshape => exact absurd hshape hop
    · rwa [hoption]
  | case8 isSeparated g arg o htakes value rest hvalue hsep hop hoption ih =>
    obtain ⟨hfree, hmore⟩ := bind_addOption_withTime time h ih
    refine ⟨hfree, ?_⟩
    rw [read.eq_2]
    split
    · next hshape => exact absurd hshape hsep
    · next hshape => exact absurd hshape hop
    · rw [hoption]
      dsimp only
      rwa [if_pos htakes, if_pos hvalue]
  | case10 isSeparated g arg rest o htakes hsep hop hoption ih =>
    obtain ⟨hfree, hmore⟩ := bind_addOption_withTime time h ih
    refine ⟨hfree, ?_⟩
    rw [read.eq_2]
    split
    · next hshape => exact absurd hshape hsep
    · next hshape => exact absurd hshape hop
    · rw [hoption]
      dsimp only
      rwa [if_neg htakes]
  | case2 | case5 | case7 | case9 => cases h

/-- No value of an option means that it is not given. -/
theorem has_eq_false_of_value? {g : Given} {o : OptionName} (h : g.value? o = none) :
    g.has o = false := by
  rw [value?, List.head?_eq_none_iff, values, List.map_eq_nil_iff, List.filter_eq_nil_iff] at h
  rw [has, List.any_eq_false]
  exact h

end Given

/-- Arguments that compile a policy are accepted with a time in front of them, unless they have one
of their own. -/
theorem ofArguments_withTime {rest : List String} {settings : PolicySettings}
    {output ruleset : Option String} {time : String}
    (h : Command.ofArguments ("compile" :: rest) = .ok (.compile settings output ruleset none))
    (htime : time.toList.head? ≠ some '-') :
    Command.ofArguments ("compile" :: "--timestamp" :: time :: rest) =
      .ok (.compile settings output ruleset (some time)) := by
  have hnamed : ∀ args, Command.ofArguments ("compile" :: args) =
      Given.ofArguments Command.compileGrammar args >>= fun g => .ok (.compile (.ofGiven g)
        (g.value? .output) (g.value? .ruleset) (g.value? .timestamp)) := fun args => rfl
  rw [hnamed, bind_eq_ok_iff] at h
  obtain ⟨g, hg, hcommand⟩ := h
  injection Except.ok.inj hcommand with hsettings houtput hruleset hnone
  have hread := (Given.read_withTime time hg (Given.has_eq_false_of_value? hnone)).2
  have hfirst : Given.ofArguments Command.compileGrammar ("--timestamp" :: time :: rest) =
      Given.read Command.compileGrammar false (Given.withTime time {}) rest := by
    have hshape : Shape.of "--timestamp" = .long "timestamp" none := by decide
    have hoption : Given.optionOf? Command.compileGrammar (.long "timestamp" none) =
      some (.timestamp, none) := by decide
    rw [Given.ofArguments, Given.read.eq_2, if_neg Bool.false_ne_true, hshape]
    dsimp only
    rw [hoption]
    dsimp only
    have htakes : OptionName.timestamp.takesValue = true := rfl
    rw [if_pos htakes, if_pos (Shape.of_eq_operand htime)]
    rfl
  rw [hnamed, hfirst, hread, ← hsettings, ← houtput, ← hruleset]
  rfl

/-! ## Runs -/

theorem head?_text {t : Timestamp} (hyear : 0 ≤ t.date.year ∧ t.date.year ≤ 9999) :
    t.text.toList.head? ≠ some '-' := by
  have hnumeral : IsNumeral (paddedDigits 10 4 t.date.year.toNat) := isNumeral_paddedDigits 4 _
  obtain ⟨c, digits, hdigits⟩ := List.exists_cons_of_ne_nil hnumeral.ne_nil
  have hc : c.isDigit = true :=
    isDigit_of_mem_paddedDigits c (hdigits ▸ List.mem_cons_self)
  rw [t.toList_text, Timestamp.yearText, if_pos hyear, hdigits]
  rintro hhyphen
  obtain rfl := Option.some.inj hhyphen
  exact absurd hc (by decide)

theorem compile_congr_text {t u : Timestamp} (h : t.text = u.text) (p : Policy) :
    Compiler.compile t p = Compiler.compile u p := by
  simp only [Compiler.compile, Compiler.script, Compiler.header, h]

/-- Runs at times with the same text have the same outcome. -/
theorem run_congr_text {σ φ : Type} [FileSystem σ φ] {args otherArgs : List String}
    {settings : PolicySettings} {output ruleset time otherTime : Option String}
    (hargs : Command.ofArguments args = .ok (.compile settings output ruleset time))
    (hother : Command.ofArguments otherArgs = .ok (.compile settings output ruleset otherTime))
    {now later t u : Timestamp} {transport : Http.Transport} {files : σ}
    (ht : timestamp { now, transport, read := FileSystem.read files } time = .ok t)
    (hu : timestamp { now := later, transport, read := FileSystem.read files } otherTime = .ok u)
    (htext : t.text = u.text) :
    run now transport files args = run later transport files otherArgs := by
  have hplan : compilePlan { now, transport, read := FileSystem.read files } settings output
      ruleset time = compilePlan { now := later, transport, read := FileSystem.read files } settings
        output ruleset otherTime := by
    rw [compilePlan, compilePlan, ht, hu]
    simp only [bind, Except.bind, compile_congr_text htext]
    rfl
  rw [run, run, hargs, hother]
  dsimp only [Command.plan]
  rw [hplan]

/-- A script tells how to make it again. Its header has the text of the time that it was compiled
at. If that time has a year of four digits, the text denotes the start of its millisecond, at which
the same script and ruleset are made, and a run of the program with this text in place of its time
has the outcome of any run that has told it. At other times, the same policy makes a script that
differs at most in the one line with the time; and not at all, if the times are in the same
millisecond. -/
theorem remade_of_compile {t : Timestamp} {p : Policy} {c : CompiledPolicy}
    (h : Compiler.compile t p = .ok c) :
    (t.IsProper → 0 ≤ t.date.year ∧ t.date.year ≤ 9999 →
      ∃ text, Script.generatedTime? c.script = some text ∧
        Timestamp.parse text = .ok t.truncated ∧ Compiler.compile t.truncated p = .ok c ∧
        ∀ (σ φ : Type) [FileSystem σ φ] (files : σ) args settings output ruleset time now transport,
          Command.ofArguments args = .ok (.compile settings output ruleset time) →
          timestamp { now, transport, read := FileSystem.read files } time = .ok t →
          ∀ rest later,
            Command.ofArguments ("compile" :: rest) =
              .ok (.compile settings output ruleset none) →
            run later transport files ("compile" :: "--timestamp" :: text :: rest) =
              run now transport files args) ∧
    (∃ before after, ∀ u, ∃ other, Compiler.compile u p = .ok other ∧ other.script =
      Script.textOf (before ++ (Script.generatedStart ++ u.text) :: after)) ∧
    ∀ u, t.SameMillisecond u → Compiler.compile u p = .ok c := by
  obtain ⟨variant, hvariant, rfl⟩ := Script.compile_eq_ok_iff.1 h
  refine ⟨fun hproper hyear => ⟨t.text, ?_, ?_, ?_, ?_⟩, ?_, fun u hu => ?_⟩
  · exact Script.generatedTime?_script t variant p
  · exact Timestamp.parse_text hproper hyear
  · rw [compile_congr_text (Timestamp.text_truncated hproper), h]
  · intro σ φ _ files args settings output ruleset time now transport hargs htime rest later hrest
    have hremade := ofArguments_withTime hrest (head?_text hyear)
    refine run_congr_text hremade hargs ?_ htime (Timestamp.text_truncated hproper)
    rw [timestamp, Timestamp.parse_text hproper hyear]
  · refine ⟨(Script.linesBeforeTime p).map Script.Line.text,
      (Script.linesAfterTime variant p).map Script.Line.text, fun u => ?_⟩
    exact ⟨_, Script.compile_eq_ok_iff.2 ⟨variant, hvariant, rfl⟩, Script.text_script u variant p⟩
  · rw [← compile_congr_text (Timestamp.text_congr hu), h]

/-- The leap second at the end of 1969, told by a text with more digits than the header has. -/
theorem remade_of_compile_leap_second :
    ∃ c, Compiler.compile ⟨-1, 1999500000⟩ .default = .ok c ∧
      Script.generatedTime? c.script = some "1969-12-31T23:59:60.999Z" ∧
      (∀ later (d : Disk), run later .none d
          ["compile", "--timestamp", "1969-12-31T23:59:60.999Z", "--ipv6"] =
        run ⟨0, 0⟩ .none d ["compile", "--ipv6", "--timestamp", "1970-01-01T00:59:60.9995+01:00"]) ∧
      Compiler.compile ⟨-1, 1999000000⟩ .default = .ok c := by
  have hcompile := (Script.compile_eq_ok_iff (t := ⟨-1, 1999500000⟩) (p := .default)).2
    ⟨.addressSets, rfl, rfl⟩
  obtain ⟨hremade, -, hsame⟩ := remade_of_compile hcompile
  obtain ⟨text, htext, -, -, hruns⟩ := hremade (by decide) (by decide)
  have htime : Timestamp.parse "1970-01-01T00:59:60.9995+01:00" = .ok ⟨-1, 1999500000⟩ := by
    decide
  have hwritten : Timestamp.text ⟨-1, 1999500000⟩ = "1969-12-31T23:59:60.999Z" := by decide
  rw [Script.generatedTime?_script, hwritten, Option.some_inj] at htext
  subst htext
  refine ⟨_, hcompile, ?_, fun later d => ?_, hsame _ (by decide)⟩
  · rw [Script.generatedTime?_script, hwritten]
  · refine hruns Disk _ d _ ⟨none, [], none, none, false, true⟩ none none
      (some "1970-01-01T00:59:60.9995+01:00") _ _ (by decide) ?_ ["--ipv6"] later (by decide)
    rw [timestamp, htime]

end CommandLine

end GeoPolicy

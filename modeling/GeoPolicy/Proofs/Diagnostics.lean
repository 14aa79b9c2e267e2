import GeoPolicy.Diagnostics
import GeoPolicy.Proofs.Remote
import GeoPolicy.Proofs.Script.NamesIPv6

/-!
# Outcomes of the self checks

The check of the compiler always succeeds, and the checks of the two collaborators depend on their
own collaborator alone. Nothing depends on the time: the header of a script is the only place that
tells it, and it does not count for parity.

## Main definitions

* `Diagnostics.remotePolicy` — the policy that a remote generator is tried on.
-/

namespace GeoPolicy

open Text Script

/-! ## Parts of scripts -/

theorem Text.contains_iff (part s : List Char) : contains part s = true ↔ part <:+: s := by
  induction s with
  | nil => simp [contains]
  | cons c s ih =>
    rw [contains, Bool.or_eq_true, ih, List.isPrefixOf_iff_prefix, List.infix_cons_iff]

theorem Script.isInfix_text_of_mem {l : Line} {ls : List Line} (h : l ∈ ls) :
    l.text.toList <:+: (text ls).toList := by
  obtain ⟨before, after, rfl⟩ := List.append_of_mem h
  refine ⟨(text before).toList, '\n' :: (text after).toList, ?_⟩
  simp [text, textOf, String.toList_join]

namespace Compiler

/-- The normal form of a script does not depend on the time. -/
theorem normalize_of_compile {s t : Timestamp} {p : Policy} {c d : CompiledPolicy}
    (hc : compile s p = .ok c) (hd : compile t p = .ok d) :
    Parity.normalize c.script = Parity.normalize d.script :=
  beq_iff_eq.1 (isMatch_compare_of_compile hc hd)

/-- The statements of a script do not depend on the time. -/
theorem statements_of_compile {s t : Timestamp} {p : Policy} {c d : CompiledPolicy}
    (hc : compile s p = .ok c) (hd : compile t p = .ok d) :
    Parity.statements c.script = Parity.statements d.script :=
  ParityReport.isMatch_compare_iff_statements.1 (isMatch_compare_of_compile hc hd)

end Compiler

namespace Diagnostics

/-! ## Compilation -/

/-- The policy that the compiler is tried on. -/
def localPolicy : Policy where
  regions := [⟨'U', 'S', rfl, rfl⟩, ⟨'C', 'N', rfl, rfl⟩]
  useIPv6 := true

theorem dualStackBlock_local : dualStackBlock ["US", "CN"] = .ok localPolicy := rfl

/-- The check of the compiler succeeds at any time. -/
theorem checkGeneration_eq (t : Timestamp) :
    checkGeneration t = {
      name := "local_generation"
      success := true
      notes := ["Generating internal script for [US, CN] with IPv6 enabled...",
        "Generated 183 lines."] } := by
  have hcompile := (compile_eq_ok_iff (t := t) (p := localPolicy)).2 ⟨.addressSets, rfl, rfl⟩
  have hcount :
      (lines (text (Compiler.script t .addressSets localPolicy)).toList).length = 183 := by
    obtain ⟨-, variant, hvariant, -, hcount⟩ := shapes_of_compile hcompile
    obtain rfl : .addressSets = variant := Except.ok.inj hvariant
    exact hcount
  have hname : contains "geoguard_v6".toList
      (text (Compiler.script t .addressSets localPolicy)).toList = true := by
    have hline : Line.createSet .v6 ∈ Compiler.script t .addressSets localPolicy := by
      simp [Compiler.script, Variant.body, Variant.setBody, Variant.families, Variant.freshSet,
        localPolicy]
    have hname := (Line.createSet .v6).nameIPv6_isInfix_text rfl
    exact (contains_iff _ _).2 (hname.trans (isInfix_text_of_mem hline))
  rw [checkGeneration, dualStackBlock_local]
  simp only [bind, Except.bind, hcompile, hcount, hname]
  rfl

/-! ## Lookups -/

theorem checkLookup_of_ok {lookup : Lookup} {l : Location} (h : lookup probe = .ok l) :
    checkLookup lookup = {
      name := "ip_lookup"
      success := l.code = "US"
      notes := [s!"Querying {probe.text}...",
        s!"Response: {l.city}, {l.country} ({l.code})"] } := by
  rw [checkLookup, h]

theorem checkLookup_of_error {lookup : Lookup} {e : Error} (h : lookup probe = .error e) :
    checkLookup lookup = {
      name := "ip_lookup"
      success := false
      notes := [s!"Querying {probe.text}...", s!"Error: {e.message}"] } := by
  rw [checkLookup, h]

theorem success_checkLookup_iff (lookup : Lookup) :
    (checkLookup lookup).success = true ↔ ∃ l, lookup probe = .ok l ∧ l.code = "US" := by
  cases h : lookup probe with
  | ok l => simp [checkLookup_of_ok h]
  | error e => simp [checkLookup_of_error h]

theorem name_checkLookup (lookup : Lookup) : (checkLookup lookup).name = "ip_lookup" := by
  cases h : lookup probe with
  | ok l => rw [checkLookup_of_ok h]
  | error e => rw [checkLookup_of_error h]

/-! ## Parity -/

/-- The policy that a remote generator is tried on. -/
def remotePolicy : Policy where
  regions := [⟨'U', 'S', rfl, rfl⟩]
  backend := .iptables
  action := .block
  useAddressSet := true
  useIPv6 := true

theorem dualStackBlock_remote : dualStackBlock ["US"] = .ok remotePolicy := rfl

theorem exists_compile_remotePolicy (t : Timestamp) :
    ∃ c, Compiler.compile t remotePolicy = .ok c :=
  ⟨_, compile_eq_ok_iff.2 ⟨.addressSets, rfl, rfl⟩⟩

theorem checkParity_of_error (t : Timestamp) {g : Generator} {e : Error}
    (h : g.generate remotePolicy = .error e) :
    checkParity t (some g) = ({
      name := "remote_parity"
      success := false
      notes := [s!"Comparing local engine vs {g.name}...", s!"Error: {e.message}"] }, []) := by
  obtain ⟨c, hc⟩ := exists_compile_remotePolicy t
  have hverify : Parity.verify remotePolicy (.compiler t) g = .error e := by
    have hlocal : (Generator.compiler t).generate remotePolicy = .ok c := hc
    rw [Parity.verify, hlocal, h]
    rfl
  rw [checkParity]
  simp only [dualStackBlock_remote, bind, Except.bind, hverify]

/-- What the check of a generator that makes a script records. -/
theorem checkParity_of_ok {t : Timestamp} {g : Generator} {c d : CompiledPolicy}
    (hc : Compiler.compile t remotePolicy = .ok c) (hd : g.generate remotePolicy = .ok d) :
    let report := ParityReport.compare c.script d.script
    checkParity t (some g) = ({
      name := "remote_parity"
      success := report.isMatch
      notes := [s!"Comparing local engine vs {g.name}...",
        if report.isMatch then "Functional parity verified." else "Functional logic mismatch."] },
      [Parity.record "local" g.name report]) := by
  have hverify := Parity.verify_of_generate (a := .compiler t) hc hd
  rw [checkParity]
  simp only [dualStackBlock_remote, bind, Except.bind, hverify]
  cases (ParityReport.compare c.script d.script).isMatch <;> rfl

theorem success_checkParity_iff (t : Timestamp) (remote : Option Generator) :
    (checkParity t remote).1.success = true ↔ ∃ g d, remote = some g ∧
      g.generate remotePolicy = .ok d ∧ ∀ s, ∃ c, Compiler.compile s remotePolicy = .ok c ∧
        Parity.statements d.script = Parity.statements c.script := by
  obtain ⟨c, hc⟩ := exists_compile_remotePolicy t
  constructor
  · intro h
    cases remote with
    | none => exact absurd h Bool.false_ne_true
    | some g =>
      cases hd : g.generate remotePolicy with
      | error e =>
        rw [checkParity_of_error t hd] at h
        exact absurd h Bool.false_ne_true
      | ok d =>
        rw [checkParity_of_ok hc hd] at h
        have hsame := ParityReport.isMatch_compare_iff_statements.1 h
        refine ⟨g, d, rfl, hd, fun s => ?_⟩
        obtain ⟨b, hb⟩ := exists_compile_remotePolicy s
        exact ⟨b, hb, hsame.symm.trans (Compiler.statements_of_compile hc hb)⟩
  · rintro ⟨g, d, rfl, hd, hsame⟩
    obtain ⟨b, hb, hsame⟩ := hsame t
    rw [checkParity_of_ok hb hd]
    exact ParityReport.isMatch_compare_iff_statements.2 hsame.symm

theorem name_checkParity (t : Timestamp) (remote : Option Generator) :
    (checkParity t remote).1.name = "remote_parity" := by
  cases remote with
  | none => rfl
  | some g =>
    obtain ⟨c, hc⟩ := exists_compile_remotePolicy t
    cases hd : g.generate remotePolicy with
    | ok d => rw [checkParity_of_ok hc hd]
    | error e => rw [checkParity_of_error t hd]

/-- The check of a generator does not depend on the time. -/
theorem checkParity_congr (s t : Timestamp) (remote : Option Generator) :
    checkParity s remote = checkParity t remote := by
  cases remote with
  | none => rfl
  | some g =>
    obtain ⟨b, hb⟩ := exists_compile_remotePolicy s
    obtain ⟨c, hc⟩ := exists_compile_remotePolicy t
    cases hd : g.generate remotePolicy with
    | ok d =>
      rw [checkParity_of_ok hb hd, checkParity_of_ok hc hd, ParityReport.compare,
        Compiler.normalize_of_compile hb hc]
      rfl
    | error e => rw [checkParity_of_error s hd, checkParity_of_error t hd]

/-! ## Whole reports -/

theorem checks_run (t : Timestamp) (lookup : Lookup) (remote : Option Generator) :
    (run t lookup remote).checks =
      [checkLookup lookup, checkGeneration t, (checkParity t remote).1] := rfl

theorem run_congr (s t : Timestamp) (lookup : Lookup) (remote : Option Generator) :
    run s lookup remote = run t lookup remote := by
  rw [run, run, checkParity_congr s t, checkGeneration_eq, checkGeneration_eq]

/-- The self checks are always the same three, and the one of the compiler always succeeds and tells
how long the script is. All of them pass exactly if the lookup of the probe gives the right country
and there is a generator whose script has the statements of the compiled one. The failure of a
collaborator is told by its own check, and the other checks never depend on it. The time has no
say. -/
theorem report_of_run (t : Timestamp) (lookup : Lookup) (remote : Option Generator) :
    let report := run t lookup remote
    report.checks.map (·.name) = ["ip_lookup", "local_generation", "remote_parity"] ∧
    (report.checks[1]? = some {
      name := "local_generation"
      success := true
      notes := ["Generating internal script for [US, CN] with IPv6 enabled...",
        "Generated 183 lines."] }) ∧
    (report.allPassed = true ↔
      (∃ l, lookup (.ofOctets [8, 8, 8, 8]) = .ok l ∧ l.code = "US") ∧
      ∃ g d, remote = some g ∧ g.generate remotePolicy = .ok d ∧
        ∀ s, ∃ c, Compiler.compile s remotePolicy = .ok c ∧
          Parity.statements d.script = Parity.statements c.script) ∧
    (∀ e, lookup (.ofOctets [8, 8, 8, 8]) = .error e → report.checks[0]? = some {
      name := "ip_lookup"
      success := false
      notes := ["Querying 8.8.8.8...", s!"Error: {e.message}"] }) ∧
    (∀ other, (run t other remote).checks.drop 1 = report.checks.drop 1) ∧
    (∀ g e, remote = some g → g.generate remotePolicy = .error e → report.checks[2]? = some {
      name := "remote_parity"
      success := false
      notes := [s!"Comparing local engine vs {g.name}...", s!"Error: {e.message}"] }) ∧
    (∀ other, (run t lookup other).checks.take 2 = report.checks.take 2) ∧
    ∀ s, run s lookup remote = report := by
  intro report
  have hchecks : report.checks = _ := checks_run t lookup remote
  have hprobe : s!"Querying {probe.text}..." = "Querying 8.8.8.8..." := by decide +kernel
  refine ⟨?_, ?_, ?_, fun e he => ?_, fun _ => rfl, fun g e hg he => ?_, fun _ => rfl,
    fun s => run_congr s t lookup remote⟩
  · rw [hchecks, List.map_cons, List.map_cons, List.map_cons, name_checkLookup,
      name_checkParity, checkGeneration_eq]
    rfl
  · rw [hchecks, checkGeneration_eq]
    rfl
  · have hpassed : report.allPassed = true ↔ (checkLookup lookup).success = true ∧
        (checkParity t remote).1.success = true := by
      rw [Report.allPassed, hchecks, checkGeneration_eq]
      simp
    rw [hpassed, success_checkLookup_iff, success_checkParity_iff]
    rfl
  · rw [hchecks, checkLookup_of_error he, hprobe]
    rfl
  · subst hg
    rw [hchecks, checkParity_of_error t he]
    rfl

/-- All is well with a lookup that knows the probe and a generator that is the compiler at another
time. A registry and a server that refuse are told by their own checks. -/
theorem report_of_run_refused :
    let knowing : Lookup := fun a => .ok ⟨a, "United States", "US", "Unknown", "Unknown", "Unknown"⟩
    let refusing : Lookup := fun _ => .error (.lookup (.status 429))
    let failing : Generator := .ofFunction fun _ => .error (.remote (.status 503))
    (run ⟨0, 0⟩ knowing (some (.compiler ⟨1, 0⟩))).allPassed = true ∧
    (run ⟨0, 0⟩ refusing (some failing)).checks[0]? = some {
      name := "ip_lookup"
      success := false
      notes := ["Querying 8.8.8.8...", "Error: lookup failed: Registry error: 429"] } ∧
    (run ⟨0, 0⟩ refusing (some failing)).checks[2]? = some {
      name := "remote_parity"
      success := false
      notes := ["Comparing local engine vs generator...",
        "Error: remote generator error: HTTP error: 503"] } := by
  intro knowing refusing failing
  obtain ⟨-, -, hpassed, -⟩ := report_of_run ⟨0, 0⟩ knowing (some (.compiler ⟨1, 0⟩))
  obtain ⟨-, -, -, hlookup, -, hremote, -⟩ := report_of_run ⟨0, 0⟩ refusing (some failing)
  refine ⟨hpassed.2 ⟨⟨_, rfl, rfl⟩, ?_⟩, hlookup _ rfl, hremote _ _ rfl rfl⟩
  obtain ⟨d, hd⟩ := exists_compile_remotePolicy ⟨1, 0⟩
  refine ⟨_, d, rfl, hd, fun s => ?_⟩
  obtain ⟨c, hc⟩ := exists_compile_remotePolicy s
  exact ⟨c, hc, Compiler.statements_of_compile hd hc⟩

end Diagnostics

end GeoPolicy

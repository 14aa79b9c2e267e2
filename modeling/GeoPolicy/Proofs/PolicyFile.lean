import GeoPolicy.PolicyFile
import GeoPolicy.Proofs.Draft
import GeoPolicy.Proofs.GenerateRequest
import GeoPolicy.Proofs.Region
import GeoPolicy.Proofs.SettingNames
import GeoPolicy.Proofs.Yaml.FlatTree

/-!
# Policies as files

A policy file has one line for each setting, and reading it does what the calls of a draft do: each
line is a call. So the lines may come in any order, a line that sets a default may be left out, and
every policy can be written as a file. A region code is read as the text that it is, whatever the
letters are, though some are words for truth values elsewhere.

## Main definitions

* `PolicyDraft.Call.line` — a call as a line of a policy file.
* `PolicyDraft.settings` — the calls that give all settings of a draft.

## Main statements

* `PolicyDraft.ofNode_lines` — lines are read as the calls that they are.
* `Policy.ofYaml_lines` — the file of a policy, with any default left out, is read as the policy.
-/

namespace GeoPolicy

open Yaml

/-! ## Values -/

namespace Yaml.Node

variable (root : Node)

theorem text_of_isWord {n : Node} {w : String} (h : n.IsWord w) : root.text n = .ok w := by
  obtain ⟨place, rfl⟩ := h
  rfl

theorem texts_of_holds {n : Node} {ws : List String} (h : n.Holds (.words ws)) :
    root.texts n = .ok ws := by
  cases h with
  | words place hitems =>
    exact mapM_eq_ok_iff.2 (hitems.imp fun _ _ hword => text_of_isWord root hword)

theorem truth_of_holds {n : Node} {enabled : Bool} (h : n.Holds (.word (toString enabled))) :
    root.truth n = .ok enabled := by
  cases h with
  | word hword =>
    obtain ⟨place, rfl⟩ := hword
    cases enabled <;> rfl

theorem backend_of_holds (start : Place) {n : Node} {b : Backend} (h : n.Holds (.word b.name)) :
    backend start root n = .ok b := by
  cases h with
  | word hword =>
    obtain ⟨place, rfl⟩ := hword
    exact (Backend.node_backend_eq_ok_iff ..).2 b.parse_name

theorem action_of_holds (start : Place) {n : Node} {a : Action} (h : n.Holds (.word a.name)) :
    action start root n = .ok a := by
  cases h with
  | word hword =>
    obtain ⟨place, rfl⟩ := hword
    cases a <;> rfl

end Yaml.Node

/-! ## Lines -/

namespace PolicyDraft

namespace Call

/-- The name of the setting that a call is about. -/
def settingName : Call → String
  | region _ | regions _ => "regions"
  | backend _ => "backend"
  | action _ => "action"
  | useAddressSet _ => "use_address_set"
  | useIPv6 _ => "use_ipv6"

/-- What a call says about its setting, as the value of a line. Regions stand in brackets. -/
def written : Call → String
  | region code => "[" ++ code ++ "]"
  | regions codes => "[" ++ ", ".intercalate codes ++ "]"
  | backend b => b.name
  | action a => a.name
  | useAddressSet enabled | useIPv6 enabled => toString enabled

/-- A call as a line of a policy file. -/
def line (c : Call) : String :=
  c.settingName ++ ": " ++ c.written

/-- A call as a member of a flat file. -/
def member (c : Call) : FlatMember where
  name := c.settingName
  value := match c with
    | region code => .words [code]
    | regions codes => .words codes
    | backend b => .word b.name
    | action a => .word a.name
    | useAddressSet enabled | useIPv6 enabled => .word (toString enabled)

theorem toList_line (c : Call) : (c.line ++ "\n").toList = c.member.chars := by
  cases c <;>
    simp [line, member, settingName, written, FlatMember.chars, FlatValue.chars,
      String.toList_intercalate]

/-- Whether the texts of a call are plain words. -/
def IsPlain (c : Call) : Prop :=
  ∀ code ∈ c.texts, IsPlainWord code.toList

theorem settingName_mem (c : Call) : c.settingName ∈ settingNames := by
  cases c <;> simp [settingName, settingNames]

theorem isPlainWord_settingName (c : Call) : IsPlainWord c.settingName.toList := by
  have hall : ∀ name ∈ settingNames, IsPlainWord name.toList := by decide
  exact hall _ c.settingName_mem

theorem settingName_of_addsRegions {c : Call} (h : c.addsRegions = true) :
    c.settingName = "regions" := by
  cases c with
  | region _ | regions _ => rfl
  | backend _ | action _ | useAddressSet _ | useIPv6 _ => cases h

theorem texts_of_not_addsRegions {c : Call} (h : c.addsRegions = false) : c.texts = [] := by
  cases c with
  | region _ | regions _ => cases h
  | backend _ | action _ | useAddressSet _ | useIPv6 _ => rfl

theorem IsPlain.member {c : Call} (h : c.IsPlain) : c.member.IsPlain := by
  refine ⟨c.isPlainWord_settingName, ?_⟩
  cases c with
  | region code | regions codes => exact h
  | backend b =>
    change IsPlainWord b.name.toList
    cases b <;> decide
  | action a =>
    change IsPlainWord a.name.toList
    cases a <;> decide
  | useAddressSet enabled | useIPv6 enabled =>
    change IsPlainWord (toString enabled).toList
    cases enabled <;> decide

end Call

/-! ## Reading lines -/

section Reading

variable (start : Place) (root : Node)

/-- The member of a call does what the call does, unless regions are there already. -/
theorem withMember_of_holds {d : PolicyDraft} {c : Call} {value : Node}
    (h : value.Holds c.member.value) (hregions : c.addsRegions = true → d.regions = []) :
    d.withMember start root c.settingName value = .ok (d.after c) := by
  cases c with
  | region code =>
    simp [withMember, Call.settingName, Node.texts_of_holds root h, after, addRegion, hregions rfl]
  | regions codes =>
    simp [withMember, Call.settingName, Node.texts_of_holds root h, after, addRegions, hregions rfl]
  | backend b => simp [withMember, Call.settingName, Node.backend_of_holds root start h, after]
  | action a => simp [withMember, Call.settingName, Node.action_of_holds root start h, after]
  | useAddressSet enabled => simp [withMember, Call.settingName, Node.truth_of_holds root h, after]
  | useIPv6 enabled => simp [withMember, Call.settingName, Node.truth_of_holds root h, after]

/-- Regions stay where another setting is named than the one of a call that adds some. -/
theorem regions_after_of_ne {d : PolicyDraft} {c c' : Call} (hadds : c'.addsRegions = true)
    (hne : c.settingName ≠ c'.settingName) : (d.after c).regions = d.regions := by
  have hother : c.addsRegions = false := by
    rw [Bool.eq_false_iff]
    intro hc
    refine hne ?_
    rw [Call.settingName_of_addsRegions hc, Call.settingName_of_addsRegions hadds]
  rw [after_eq, Call.texts_of_not_addsRegions hother, List.append_nil]

/-- Members are read as calls one after another, as long as no setting is named twice. -/
theorem withMembers_of_holds {d : PolicyDraft} {given : List String} {calls : List Call}
    {entries : List (Node × Node)}
    (h : List.Forall₂ Node.HoldsMember entries (calls.map Call.member))
    (hnames : (calls.map Call.settingName).Nodup)
    (hgiven : ∀ c ∈ calls, c.settingName ∉ given)
    (hregions : ∀ c ∈ calls, c.addsRegions = true → d.regions = []) :
    d.withMembers start root given entries = .ok (calls.foldl after d) := by
  induction calls generalizing d given entries with
  | nil =>
    obtain rfl := List.forall₂_nil_right_iff.1 h
    rfl
  | cons c calls ih =>
    obtain ⟨⟨key, value⟩, entries, ⟨hkey, hvalue⟩, hentries, rfl⟩ := List.forall₂_cons_right_iff.1 h
    rw [List.map_cons, List.nodup_cons] at hnames
    have hmember := withMember_of_holds start root hvalue (hregions c List.mem_cons_self)
    have hname : root.text key = .ok c.settingName := Node.text_of_isWord root hkey
    -- Another setting is named from here on, so the regions are as they were.
    have hne : ∀ c' ∈ calls, c.settingName ≠ c'.settingName := fun c' hc' heq =>
      hnames.1 (heq ▸ List.mem_map_of_mem hc')
    have hregions' : ∀ c' ∈ calls, c'.addsRegions = true → (d.after c).regions = [] := by
      intro c' hc' hadds
      rw [regions_after_of_ne hadds (hne c' hc'), hregions c' (List.mem_cons_of_mem c hc') hadds]
    have hgiven' : ∀ c' ∈ calls, c'.settingName ∉ c.settingName :: given := fun c' hc' hmem =>
      (List.mem_cons.1 hmem).elim (fun heq => hne c' hc' heq.symm)
        (hgiven c' (List.mem_cons_of_mem c hc'))
    have hlater := ih hentries hnames.2 hgiven' hregions'
    simp [withMembers, hname, bind, Except.bind, hgiven c List.mem_cons_self, hmember,
      c.settingName_mem, hlater]

/-- Lines with one setting each are read as the calls that they are, in any order. -/
theorem ofNode_lines {calls : List Call} (hplain : ∀ c ∈ calls, c.IsPlain)
    (hnames : (calls.map Call.settingName).Nodup) :
    let document := Document.ofText (Script.textOf (calls.map Call.line))
    ofNode document.root = .ok (ofCalls calls) ∧ document.isWhole = true := by
  have htext : (Script.textOf (calls.map Call.line)).toList =
      (calls.map Call.member).flatMap FlatMember.chars := by
    rw [Script.textOf, String.toList_join, List.flatMap_map, List.flatMap_map, List.flatMap_map]
    exact List.flatMap_congr fun c _ => c.toList_line
  have hmembers : ∀ m ∈ calls.map Call.member, m.IsPlain := by
    rintro _ hm
    obtain ⟨c, hc, rfl⟩ := List.mem_map.1 hm
    exact (hplain c hc).member
  obtain ⟨root, hroot, hdocument⟩ := Document.ofText_flat hmembers htext
  rw [hdocument]
  refine ⟨?_, rfl⟩
  generalize hms : calls.map Call.member = ms at hroot
  cases hroot with
  | empty =>
    obtain rfl := List.map_eq_nil_iff.1 hms
    rfl
  | mapping place hentries =>
    subst hms
    exact withMembers_of_holds place _ hentries hnames (fun _ _ => List.not_mem_nil)
      fun _ _ _ => rfl

end Reading

/-! ## Files of policies -/

/-- The calls that give all settings of a draft, in the order of a policy file. -/
def settings (d : PolicyDraft) : List Call :=
  [.regions d.regions, .backend d.backend, .action d.action, .useAddressSet d.useAddressSet,
    .useIPv6 d.useIPv6]

/-- What was set last by some of the calls is what all of them set, if those left out set what was
there before. -/
theorem lastSet_of_sublist {α : Type} {value? : Call → Option α} {before v : α}
    {kept calls : List Call} (hkept : kept.Sublist calls) (hcalls : calls.filterMap value? = [v])
    (homitted : ∀ c ∈ calls, c ∉ kept → (value? c).getD before = before) :
    lastSet value? before kept = v := by
  have hvalues := hkept.filterMap value?
  rw [hcalls, List.sublist_singleton] at hvalues
  unfold lastSet
  obtain hnone | hv := hvalues
  · obtain ⟨c, hc, hvalue⟩ := List.mem_filterMap.1 (hcalls ▸ List.mem_singleton_self v)
    have hleft : c ∉ kept := fun hmem =>
      List.not_mem_nil (hnone ▸ List.mem_filterMap.2 ⟨c, hmem, hvalue⟩)
    have hbefore := homitted c hc hleft
    rw [hvalue, Option.getD_some] at hbefore
    rw [hnone, List.getLast?_nil, Option.getD_none, hbefore]
  · rw [hv, List.getLast?_singleton, Option.getD_some]

/-- The settings of a draft are those of the default draft where they are left out, if only what is
the default is left out. -/
theorem ofCalls_of_sublist {d : PolicyDraft} {kept : List Call} (hkept : kept.Sublist d.settings)
    (homitted : ∀ c ∈ d.settings, c ∉ kept → after {} c = {}) : ofCalls kept = d := by
  simp only [after_eq, PolicyDraft.mk.injEq, List.nil_append] at homitted
  have htexts : kept.flatMap Call.texts = d.regions := by
    have hnone {l : List Call} (hl : l.Sublist d.settings.tail) : l.flatMap Call.texts = [] := by
      rw [List.flatMap_eq_nil_iff]
      intro c hc
      have hall : d.settings.tail.all (·.texts.isEmpty) = true := rfl
      simpa using List.all_eq_true.1 hall c (hl.subset hc)
    -- Only the first setting adds regions: it is left out, or it is there and adds them all.
    obtain hlater | ⟨later, rfl, hlater⟩ := List.sublist_cons_iff.1 hkept
    · have hleft : Call.regions d.regions ∉ kept := fun hmem => by
        simpa [settings] using hlater.subset hmem
      have hdefault : d.regions = [] := (homitted _ List.mem_cons_self hleft).1
      rw [hnone hlater, hdefault]
    · rw [List.flatMap_cons, hnone hlater, List.append_nil, Call.texts]
  rw [ofCalls_eq, htexts,
    lastSet_of_sublist hkept (v := d.backend) rfl fun c hc hleft => (homitted c hc hleft).2.1,
    lastSet_of_sublist hkept (v := d.action) rfl fun c hc hleft => (homitted c hc hleft).2.2.1,
    lastSet_of_sublist hkept (v := d.useAddressSet) rfl
      fun c hc hleft => (homitted c hc hleft).2.2.2.1,
    lastSet_of_sublist hkept (v := d.useIPv6) rfl fun c hc hleft => (homitted c hc hleft).2.2.2.2]

end PolicyDraft

/-- A text whose upper case is a code has two letters of ASCII. -/
theorem RegionCode.exists_letters {r : RegionCode} {code : String}
    (h : Text.asciiUpper code = r.text) :
    ∃ a b, code.toList = [a, b] ∧ a.isAlpha = true ∧ b.isAlpha = true ∧
      [a, b].map Char.toUpper = r.chars := by
  have hchars : code.toList.map Char.toUpper = r.chars := by
    rw [← String.toList_ofList (l := code.toList.map Char.toUpper), ← Text.asciiUpper, h, text,
      String.toList_ofList]
  obtain ⟨a, s, hs, ha, hrest⟩ := List.map_eq_cons_iff.1 hchars
  obtain ⟨b, s, rfl, hb, hnil⟩ := List.map_eq_cons_iff.1 hrest
  obtain rfl := List.map_eq_nil_iff.1 hnil
  refine ⟨a, b, hs, ?_, ?_, hs ▸ hchars⟩
  · rw [← Char.isUpper_toUpper_eq_isAlpha, ha, r.first_isUpper]
  · rw [← Char.isUpper_toUpper_eq_isAlpha, hb, r.second_isUpper]

theorem RegionCode.isPlainWord_of_asciiUpper {r : RegionCode} {code : String}
    (h : Text.asciiUpper code = r.text) : IsPlainWord code.toList := by
  obtain ⟨a, b, hcode, ha, hb, -⟩ := exists_letters h
  rw [hcode]
  exact ⟨ha, by simp [isWord_of_isAlpha ha, isWord_of_isAlpha hb], by simp⟩

/-- A code in any case is read as the code. -/
theorem RegionCode.parse_of_asciiUpper {r : RegionCode} {code : String}
    (h : Text.asciiUpper code = r.text) : parse code = .ok r := by
  obtain ⟨a, b, hcode, ha, hb, hchars⟩ := exists_letters h
  have hprintable : ∀ c ∈ [a, b], IsPrintable c ∧ c ≠ ' ' := by
    have hletter {c : Char} (hc : c.isAlpha = true) : IsPrintable c ∧ c ≠ ' ' :=
      have hword := isWord_of_isAlpha hc
      ⟨isPrintable_of_isWord hword, ne_of_isWord hword (by decide)⟩
    simpa using And.intro (hletter ha) (hletter hb)
  have hword : Text.IsWord [a, b] :=
    ⟨List.cons_ne_nil _ _, fun c hc => (hprintable c hc).1.isBlank (hprintable c hc).2⟩
  have hascii : ∀ c ∈ [a, b], c.toNat < 128 := fun c hc =>
    (hprintable c hc).1.2.trans (by decide)
  rw [parse_eq_ok_iff, hcode, Text.trimChars_word hword, isWritten_iff,
    Text.upper_of_forall_lt hascii, hchars]

open PolicyDraft in
/-- The file of a policy is read as the policy. Each code may be in any case, and is read as the
text that it is. Lines that set a default may be left out. -/
theorem Policy.ofYaml_lines (p : Policy) {codes : List String}
    (hcodes : List.Forall₂ (fun code r => Text.asciiUpper code = r.text) codes p.regions)
    {kept : List Call} (hkept : kept.Sublist (settings { ofPolicy p with regions := codes }))
    (homitted : ∀ c ∈ settings { ofPolicy p with regions := codes }, c ∉ kept →
      PolicyDraft.after {} c = {}) :
    let text := Script.textOf (kept.map Call.line)
    ofNode (Document.ofText text).root = .ok { ofPolicy p with regions := codes } ∧
      Policy.ofYaml text = .ok p := by
  have hwords : ∀ code ∈ codes, IsPlainWord code.toList :=
    ((List.forall₂_and_left _ _).1 (hcodes.imp fun _ _ h =>
      ⟨RegionCode.isPlainWord_of_asciiUpper h, h⟩)).1
  have hplain : ∀ c ∈ settings { ofPolicy p with regions := codes }, c.IsPlain := by
    have hnone : ∀ code ∈ ([] : List String), IsPlainWord code.toList :=
      fun _ h => absurd h List.not_mem_nil
    simp only [settings, List.forall_mem_cons]
    exact ⟨hwords, hnone, hnone, hnone, hnone, List.forall_mem_nil _⟩
  have hnames : (kept.map Call.settingName).Nodup :=
    have hall : settingNames.Nodup := by decide
    (hkept.map Call.settingName).nodup hall
  obtain ⟨hdraft, hwhole⟩ := ofNode_lines (fun c hc => hplain c (hkept.subset hc)) hnames
  rw [ofCalls_of_sublist hkept homitted] at hdraft
  have hparse : codes.mapM RegionCode.parse = .ok p.regions :=
    mapM_eq_ok_iff.2 (hcodes.imp fun _ _ => RegionCode.parse_of_asciiUpper)
  have hbuild : build { ofPolicy p with regions := codes } = .ok p := by
    rw [build_of_codes hparse]
    simp only [distinct_eq_self p.regions_nodup, ofPolicy]
  refine ⟨hdraft, ?_⟩
  simp only [Policy.ofYaml, hdraft, hwhole, if_true, hbuild]

open PolicyDraft in
/-- Codes that are words for truth values elsewhere are codes. -/
theorem Policy.ofYaml_lines_no_on :
    let p : Policy :=
      { regions := [⟨'N', 'O', rfl, rfl⟩, ⟨'O', 'N', rfl, rfl⟩]
        backend := .nftables
        useIPv6 := true }
    Policy.ofYaml "regions: [no, On]\nbackend: nftables\nuse_ipv6: true\n" = .ok p := by
  intro p
  have htext : Script.textOf ([.regions ["no", "On"], .backend .nftables, .useIPv6 true].map
      Call.line) = "regions: [no, On]\nbackend: nftables\nuse_ipv6: true\n" := by
    decide
  have hcodes : List.Forall₂ (fun code r => Text.asciiUpper code = RegionCode.text r)
      ["no", "On"] p.regions :=
    .cons (by decide) (.cons (by decide) .nil)
  rw [← htext]
  exact (Policy.ofYaml_lines p hcodes (by decide) (by decide)).2

end GeoPolicy

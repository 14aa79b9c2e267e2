import GeoPolicy.CommandLine.Run
import GeoPolicy.Proofs.Policy
import Mathlib.Data.List.Forall2

/-!
# Drafts by calls

A draft is put together by calls in any order. Calls that add regions and calls that set something
else do not meet: the draft has all regions in the order they were added, and for each other setting
what was set last. Building it looks at the regions one after another. The first text that is no
code fails it; if all are codes, the policy has each code once, where it came first. A policy that
is taken apart and put together again is the same policy.

## Main definitions

* `PolicyDraft.Call.texts`, `PolicyDraft.Call.backend?` and the like — what a call says about each
  setting.
* `PolicyDraft.lastSet` — the value that calls set last.
* `FirstOccurrences` — the members of a list, each where it comes first.
* `Policy.Follows` — what calls say about the policy that they make.
* `PolicyDraft.Call.ofPolicy` — the calls that give all settings of a policy.
* `CommandLine.Surroundings.loaded` — the policy that settings start from.
-/

namespace GeoPolicy

/-! ## Readings of a list -/

section Readings

variable {α β ε : Type} {f : α → Except ε β}

theorem mapM_cons_of_error {a : α} {e : ε} (h : f a = .error e) (l : List α) :
    (a :: l).mapM f = .error e := by
  rw [List.mapM_cons, h]
  rfl

theorem mapM_cons_of_ok {a : α} {b : β} (h : f a = .ok b) (l : List α) :
    (a :: l).mapM f = (l.mapM f).map (b :: ·) := by
  rw [List.mapM_cons, h]
  cases l.mapM f <;> rfl

/-- A list is read as a list of the same length, member by member. -/
theorem mapM_eq_ok_iff {l : List α} {out : List β} :
    l.mapM f = .ok out ↔ List.Forall₂ (fun a b => f a = .ok b) l out := by
  induction l generalizing out with
  | nil =>
    rw [List.mapM_nil, List.forall₂_nil_left_iff]
    exact ⟨fun h => (Except.ok.inj h).symm, fun h => h ▸ rfl⟩
  | cons a l ih =>
    rw [List.forall₂_cons_left_iff]
    cases ha : f a with
    | error e => simp [mapM_cons_of_error ha]
    | ok b =>
      rw [mapM_cons_of_ok ha]
      constructor
      · intro h
        cases hl : l.mapM f with
        | error e => simp [hl, Except.map] at h
        | ok rest => exact ⟨b, rest, rfl, ih.1 hl, by simpa [hl, Except.map] using h.symm⟩
      · rintro ⟨b', rest, hb, hrest, rfl⟩
        rw [ih.2 hrest, Except.ok.inj hb]
        rfl

/-- The first member that cannot be read tells the error, and nothing after it matters. -/
theorem mapM_eq_error_iff {l : List α} {e : ε} :
    l.mapM f = .error e ↔ ∃ before a after, l = before ++ a :: after ∧
      (∀ x ∈ before, ∃ b, f x = .ok b) ∧ f a = .error e := by
  induction l with
  | nil => simp [pure, Except.pure]
  | cons a l ih =>
    simp only [List.cons_eq_append_iff]
    cases ha : f a with
    | error e' =>
      rw [mapM_cons_of_error ha, Except.error.injEq]
      constructor
      · rintro rfl
        exact ⟨[], a, l, .inl ⟨rfl, rfl⟩, List.forall_mem_nil _, ha⟩
      · rintro ⟨before, x, after, ⟨rfl, hx⟩ | ⟨before, rfl, -⟩, hbefore, he⟩
        · obtain rfl := (List.cons.inj hx).1
          exact Except.error.inj (ha.symm.trans he)
        · obtain ⟨b, hb⟩ := hbefore a List.mem_cons_self
          exact absurd (ha.symm.trans hb) (by simp)
    | ok b =>
      have hmap : (l.mapM f).map (b :: ·) = .error e ↔ l.mapM f = .error e := by
        cases l.mapM f <;> simp [Except.map]
      rw [mapM_cons_of_ok ha, hmap, ih]
      constructor
      · rintro ⟨before, x, after, rfl, hbefore, he⟩
        exact ⟨a :: before, x, after, .inr ⟨before, rfl, rfl⟩,
          List.forall_mem_cons.2 ⟨⟨b, ha⟩, hbefore⟩, he⟩
      · rintro ⟨before, x, after, ⟨rfl, hx⟩ | ⟨before, rfl, rfl⟩, hbefore, he⟩
        · obtain rfl := (List.cons.inj hx).1
          exact absurd (ha.symm.trans he) (by simp)
        · exact ⟨before, x, after, rfl, (List.forall_mem_cons.1 hbefore).2, he⟩

theorem exists_mapM_eq_ok_iff {l : List α} :
    (∃ out, l.mapM f = .ok out) ↔ ∀ a ∈ l, ∃ b, f a = .ok b := by
  cases h : l.mapM f with
  | ok out =>
    have hread := mapM_eq_ok_iff.1 h
    refine ⟨fun _ a ha => ?_, fun _ => ⟨out, rfl⟩⟩
    obtain ⟨i, hi, rfl⟩ := List.getElem_of_mem ha
    exact ⟨_, (List.forall₂_iff_get.1 hread).2 i hi (hread.length_eq ▸ hi)⟩
  | error e =>
    obtain ⟨before, a, after, rfl, -, ha⟩ := mapM_eq_error_iff.1 h
    constructor
    · rintro ⟨out, hout⟩
      cases hout
    · intro hall
      obtain ⟨b, hb⟩ := hall a (by simp)
      rw [ha] at hb
      cases hb

end Readings

/-! ## First occurrences -/

section FirstOccurrences

variable {α : Type} [DecidableEq α]

/-- The members of a list, each once, in the order in which they come first. -/
structure FirstOccurrences (l firsts : List α) : Prop where
  nodup : firsts.Nodup
  mem_iff : ∀ a, a ∈ firsts ↔ a ∈ l
  ordered : firsts.Pairwise fun a b => l.idxOf a < l.idxOf b

theorem pairwise_idxOf_distinct (l : List α) :
    (distinct l).Pairwise fun a b => l.idxOf a < l.idxOf b := by
  induction l with
  | nil => exact .nil
  | cons a l ih =>
    have hother : ∀ b ∈ (distinct l).filter (· ≠ a), (a :: l).idxOf b = l.idxOf b + 1 := by
      intro b hb
      have hne : a ≠ b := by
        rintro rfl
        simp at hb
      exact List.idxOf_cons_ne _ hne
    rw [distinct, List.pairwise_cons]
    constructor
    · intro b hb
      rw [List.idxOf_cons_self, hother b hb]
      exact Nat.succ_pos _
    · refine (ih.filter _).imp_of_mem fun {b c} hb hc hlt => ?_
      rw [hother b hb, hother c hc]
      omega

theorem firstOccurrences_distinct (l : List α) : FirstOccurrences l (distinct l) where
  nodup := distinct_nodup l
  mem_iff := fun _ => mem_distinct
  ordered := pairwise_idxOf_distinct l

end FirstOccurrences

/-! ## Calls -/

namespace PolicyDraft

namespace Call

/-- The texts that a call adds to the regions. -/
def texts : Call → List String
  | region code => [code]
  | regions codes => codes
  | backend _ | action _ | useAddressSet _ | useIPv6 _ => []

/-- Whether a call is about regions. -/
def addsRegions : Call → Bool
  | region _ | regions _ => true
  | backend _ | action _ | useAddressSet _ | useIPv6 _ => false

/-- The backend that a call sets. -/
def backend? : Call → Option Backend
  | backend b => some b
  | _ => none

/-- The action that a call sets. -/
def action? : Call → Option Action
  | action a => some a
  | _ => none

/-- Whether a call switches address sets on or off. -/
def useAddressSet? : Call → Option Bool
  | useAddressSet enabled => some enabled
  | _ => none

/-- Whether a call switches IPv6 on or off. -/
def useIPv6? : Call → Option Bool
  | useIPv6 enabled => some enabled
  | _ => none

/-- The calls that give all settings of a policy. -/
def ofPolicy (p : Policy) : List Call :=
  [regions (p.regions.map RegionCode.text), backend p.backend, action p.action,
    useAddressSet p.useAddressSet, useIPv6 p.useIPv6]

theorem sets_nothing_of_addsRegions {c : Call} (h : c.addsRegions = true) :
    c.backend? = none ∧ c.action? = none ∧ c.useAddressSet? = none ∧ c.useIPv6? = none := by
  cases c with
  | region code | regions codes => exact ⟨rfl, rfl, rfl, rfl⟩
  | backend _ | action _ | useAddressSet _ | useIPv6 _ => cases h

end Call

/-- The value that calls set last, or the one that was there before. -/
def lastSet {α : Type} (value? : Call → Option α) (before : α) (calls : List Call) : α :=
  (calls.filterMap value?).getLast?.getD before

theorem lastSet_cons {α : Type} (value? : Call → Option α) (before : α) (c : Call)
    (calls : List Call) :
    lastSet value? before (c :: calls) = lastSet value? ((value? c).getD before) calls := by
  unfold lastSet
  cases h : value? c with
  | none => rw [List.filterMap_cons_none h, Option.getD_none]
  | some v =>
    rw [List.filterMap_cons_some h, List.getLast?_cons, Option.getD_some, Option.getD_some]

/-- A call adds its texts to the regions and replaces what it sets. -/
theorem after_eq (d : PolicyDraft) (c : Call) :
    d.after c = {
      regions := d.regions ++ c.texts
      backend := c.backend?.getD d.backend
      action := c.action?.getD d.action
      useAddressSet := c.useAddressSet?.getD d.useAddressSet
      useIPv6 := c.useIPv6?.getD d.useIPv6 } := by
  cases c <;> simp [after, addRegion, addRegions, Call.texts, Call.backend?, Call.action?,
    Call.useAddressSet?, Call.useIPv6?]

/-- Calls add their texts to the regions in order, and what they set last stands. -/
theorem foldl_after (d : PolicyDraft) (calls : List Call) :
    calls.foldl after d = {
      regions := d.regions ++ calls.flatMap Call.texts
      backend := lastSet Call.backend? d.backend calls
      action := lastSet Call.action? d.action calls
      useAddressSet := lastSet Call.useAddressSet? d.useAddressSet calls
      useIPv6 := lastSet Call.useIPv6? d.useIPv6 calls } := by
  induction calls generalizing d with
  | nil => simp [lastSet]
  | cons c calls ih =>
    rw [List.foldl_cons, ih, after_eq]
    simp only [lastSet_cons, List.flatMap_cons, List.append_assoc]

theorem ofCalls_eq (calls : List Call) :
    ofCalls calls = {
      regions := calls.flatMap Call.texts
      backend := lastSet Call.backend? .iptables calls
      action := lastSet Call.action? .block calls
      useAddressSet := lastSet Call.useAddressSet? true calls
      useIPv6 := lastSet Call.useIPv6? false calls } :=
  foldl_after {} calls

/-! ### Interleaving -/

/-- A setting that calls about regions do not set is set last by the same one of the others. -/
theorem lastSet_filter {α : Type} {value? : Call → Option α}
    (hvalue : ∀ c : Call, c.addsRegions = true → value? c = none) (before : α)
    (calls : List Call) :
    lastSet value? before (calls.filter (!·.addsRegions)) = lastSet value? before calls := by
  rw [lastSet, lastSet, List.filterMap_filter]
  refine congrArg (fun values => (List.getLast? values).getD before)
    (List.filterMap_congr fun c _ => ?_)
  cases hc : c.addsRegions with
  | true => simp [hvalue c hc]
  | false => simp

theorem lastSet_congr {α : Type} {value? : Call → Option α}
    (hvalue : ∀ c : Call, c.addsRegions = true → value? c = none) (before : α)
    {calls others : List Call}
    (h : calls.filter (!·.addsRegions) = others.filter (!·.addsRegions)) :
    lastSet value? before calls = lastSet value? before others := by
  rw [← lastSet_filter hvalue, h, lastSet_filter hvalue]

/-- Where calls about regions stand among the others does not matter, only their own order. -/
theorem ofCalls_congr {calls others : List Call}
    (htexts : calls.flatMap Call.texts = others.flatMap Call.texts)
    (hothers : calls.filter (!·.addsRegions) = others.filter (!·.addsRegions)) :
    ofCalls calls = ofCalls others := by
  have hnone (c : Call) (hc : c.addsRegions = true) := Call.sets_nothing_of_addsRegions hc
  rw [ofCalls_eq, ofCalls_eq, htexts,
    lastSet_congr (fun c hc => (hnone c hc).1) _ hothers,
    lastSet_congr (fun c hc => (hnone c hc).2.1) _ hothers,
    lastSet_congr (fun c hc => (hnone c hc).2.2.1) _ hothers,
    lastSet_congr (fun c hc => (hnone c hc).2.2.2) _ hothers]

/-! ### Building -/

/-- A draft is built exactly if all its texts are codes. -/
theorem exists_build_eq_ok_iff {d : PolicyDraft} :
    (∃ p, d.build = .ok p) ↔ ∀ s ∈ d.regions, ∃ r, RegionCode.parse s = .ok r := by
  rw [← exists_mapM_eq_ok_iff]
  constructor
  · rintro ⟨p, hp⟩
    cases h : d.regions.mapM RegionCode.parse with
    | ok codes => exact ⟨codes, rfl⟩
    | error e => simp [build_of_error h] at hp
  · rintro ⟨codes, h⟩
    exact ⟨_, build_of_codes h⟩

/-- A draft that is not built fails with the error of its first text that is no code. -/
theorem build_eq_error_iff {d : PolicyDraft} {e : Error} :
    d.build = .error e ↔ ∃ before s after, d.regions = before ++ s :: after ∧
      (∀ x ∈ before, ∃ r, RegionCode.parse x = .ok r) ∧ RegionCode.parse s = .error e := by
  rw [← mapM_eq_error_iff]
  cases h : d.regions.mapM RegionCode.parse with
  | ok codes => simp [build_of_codes h]
  | error e' => simp [build_of_error h]

end PolicyDraft

/-- What calls say about the policy that they make: its regions are the codes of their texts, each
where it comes first, and every other setting is the one set last, or the default. -/
structure Policy.Follows (p : Policy) (calls : List PolicyDraft.Call) : Prop where
  regions : ∃ codes : List RegionCode,
    List.Forall₂ (fun s r => RegionCode.parse s = .ok r) (calls.flatMap (·.texts)) codes ∧
      FirstOccurrences codes p.regions
  backend : p.backend = PolicyDraft.lastSet (·.backend?) .iptables calls
  action : p.action = PolicyDraft.lastSet (·.action?) .block calls
  useAddressSet : p.useAddressSet = PolicyDraft.lastSet (·.useAddressSet?) true calls
  useIPv6 : p.useIPv6 = PolicyDraft.lastSet (·.useIPv6?) false calls

namespace PolicyDraft

theorem follows_of_build {calls : List Call} {p : Policy} (h : (ofCalls calls).build = .ok p) :
    p.Follows calls := by
  have hregions : (ofCalls calls).regions = calls.flatMap Call.texts := by rw [ofCalls_eq]
  cases hcodes : (ofCalls calls).regions.mapM RegionCode.parse with
  | error e => simp [build_of_error hcodes] at h
  | ok codes =>
    obtain rfl := Except.ok.inj ((build_of_codes hcodes).symm.trans h)
    rw [mapM_eq_ok_iff, hregions] at hcodes
    rw [ofCalls_eq]
    exact ⟨⟨codes, hcodes, firstOccurrences_distinct codes⟩, rfl, rfl, rfl, rfl⟩

/-- A draft with the settings of a policy is built into that policy. -/
theorem build_ofPolicy (p : Policy) : (ofPolicy p).build = .ok p := by
  rw [build_of_codes (RegionCode.mapM_parse_text p.regions)]
  simp only [distinct_eq_self p.regions_nodup, ofPolicy]

theorem ofCalls_ofPolicy (p : Policy) : ofCalls (Call.ofPolicy p) = ofPolicy p :=
  rfl

end PolicyDraft

/-! ## Loaded policies -/

namespace CommandLine

/-- The policy that settings start from: the one in their file, or the one with defaults. -/
def Surroundings.loaded (around : Surroundings) : Option String → Except Error Policy
  | none => .ok Policy.default
  | some path =>
    match around.read path with
    | .ok bytes => Policy.ofFile bytes
    | .error cause => .error (.file cause)

theorem PolicySettings.policy_eq_bind (s : PolicySettings) (around : Surroundings) :
    s.policy around = around.loaded s.file >>= fun base => PolicyDraft.build {
      regions := if s.regions.isEmpty then base.regions.map RegionCode.text else s.regions
      backend := s.backend.getD base.backend
      action := s.action.getD base.action
      useAddressSet := base.useAddressSet && !s.noIpset
      useIPv6 := base.useIPv6 || s.ipv6 } := by
  rw [policy]
  cases s.file with
  | none => rfl
  | some path =>
    dsimp only [Surroundings.loaded]
    cases around.read path <;> rfl

/-- Settings that override nothing leave the policy as it was loaded. -/
theorem PolicySettings.policy_of_file (around : Surroundings) (file : Option String) :
    PolicySettings.policy ⟨file, [], none, none, false, false⟩ around = around.loaded file := by
  have hagain (base : Policy) : PolicyDraft.build {
      regions := base.regions.map RegionCode.text
      backend := base.backend
      action := base.action
      useAddressSet := base.useAddressSet && !false
      useIPv6 := base.useIPv6 || false } = .ok base := by
    rw [Bool.not_false, Bool.and_true, Bool.or_false]
    exact PolicyDraft.build_ofPolicy base
  rw [policy_eq_bind]
  cases around.loaded file with
  | error e => rfl
  | ok base => exact hagain base

end CommandLine

/-! ## Drafts by calls -/

/-- Calls make a policy exactly if all texts of regions are codes, and else the first text that is
none tells the error. The policy follows the calls, its regions are different and in two capital
letters each, and where calls about regions stand among the others does not matter. Every policy is
made again from its own settings, so settings that override nothing leave it as it was loaded. -/
theorem PolicyDraft.build_ofCalls (calls : List Call) :
    ((∃ p, (ofCalls calls).build = .ok p) ↔
      ∀ s ∈ calls.flatMap Call.texts, ∃ r, RegionCode.parse s = .ok r) ∧
    (∀ e, (ofCalls calls).build = .error e ↔
      ∃ before s after, calls.flatMap Call.texts = before ++ s :: after ∧
        (∀ x ∈ before, ∃ r, RegionCode.parse x = .ok r) ∧ RegionCode.parse s = .error e) ∧
    (∀ p, (ofCalls calls).build = .ok p → p.Follows calls ∧
      (p.regions.map RegionCode.text).Nodup ∧
      ∀ r ∈ p.regions, ∃ a b, r.text = String.ofList [a, b] ∧
        a.isUpper = true ∧ b.isUpper = true) ∧
    (∀ others : List Call, others.flatMap Call.texts = calls.flatMap Call.texts →
      others.filter (!·.addsRegions) = calls.filter (!·.addsRegions) →
      (ofCalls others).build = (ofCalls calls).build) ∧
    (∀ p, (ofCalls (Call.ofPolicy p)).build = .ok p) ∧
    ∀ (around : CommandLine.Surroundings) (file : Option String),
      CommandLine.PolicySettings.policy ⟨file, [], none, none, false, false⟩ around =
        around.loaded file := by
  have hregions : (ofCalls calls).regions = calls.flatMap Call.texts := by rw [ofCalls_eq]
  refine ⟨?_, fun e => ?_, fun p hp => ⟨follows_of_build hp, ?_, fun r _ => ?_⟩,
    fun others htexts hothers => ?_, fun p => ?_, CommandLine.PolicySettings.policy_of_file⟩
  · rw [exists_build_eq_ok_iff, hregions]
  · rw [build_eq_error_iff, hregions]
  · exact p.regions_nodup.map fun _ _ h => Synthesis.seed_text_injective (congrArg _ h)
  · exact ⟨r.first, r.second, rfl, r.first_isUpper, r.second_isUpper⟩
  · rw [ofCalls_congr htexts hothers]
  · rw [ofCalls_ofPolicy, build_ofPolicy]

/-- Blanks and case do not keep a region from being one that is there already. -/
theorem PolicyDraft.build_ofCalls_repeated :
    ∃ p : Policy, p.regions.map RegionCode.text = ["US", "CN"] ∧ p.backend = .iptables ∧
      p.Follows [.region " us", .backend .nftables, .regions ["Cn", "US"], .backend .iptables] := by
  have hbuild : (ofCalls [.region " us", .backend .nftables, .regions ["Cn", "US"],
      .backend .iptables]).build = .ok { regions := [⟨'U', 'S', rfl, rfl⟩, .default] } := rfl
  exact ⟨_, rfl, rfl, ((build_ofCalls _).2.2.1 _ hbuild).1⟩

end GeoPolicy

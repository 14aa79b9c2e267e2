import GeoPolicy.Proofs.Parity.NormalForm
import GeoPolicy.Proofs.Script.Rules

/-!
# Parity of compiled scripts

Parity compares the statements of two scripts. The statements of a compiled script tell its whole
policy: how ranges are installed tells the variant, IPv6 ranges tell that there are some, the rules
tell the action, and the first range of each section tells the region, although no statement names
it.

## Main definitions

* `Compiler.statements` — the lines of a policy's script that count for parity.
-/

namespace GeoPolicy

open Script Text

/-! ## Statements of a policy -/

/-- Whether a notice tells of ranges. -/
def Script.Notice.isRanges : Notice → Bool
  | heading _ => false
  | ranges _ _ _ => true

namespace Compiler

/-- The lines of a policy's script that count for parity. -/
def statements (variant : Variant) (p : Policy) : List Line :=
  [.requireCommand p.backend.command] ++
    (variant.body p (ranges variant p)).filter Line.isStatement

/-- The time in the header, like the rest of it, is no statement. -/
theorem filter_isStatement_script (t : Timestamp) (variant : Variant) (p : Policy) :
    (script t variant p).filter Line.isStatement = statements variant p := by
  rw [script, List.filter_append, List.filter_append]
  show [_] ++ _ ++ [] = _
  rw [List.append_nil]
  rfl

theorem significantLines_script (t : Timestamp) (variant : Variant) (p : Policy) :
    Parity.significantLines (text (script t variant p)) =
      (statements variant p).map (·.text.toList) := by
  rw [significantLines_text _ (wellFormed_script t variant p), filter_isStatement_script]

/-- Whether a line tells of ranges. Announcements are comments, so no statement is one. -/
theorem filterMap_notice?_filter_isStatement (ls : List Line) :
    (ls.filter Line.isStatement).filterMap Line.notice? =
      (ls.filterMap Line.notice?).filter Notice.isRanges := by
  rw [List.filterMap_filter, List.filter_filterMap]
  refine List.filterMap_congr fun l _ => ?_
  cases l <;> rfl

theorem isRanges_of_mem_rangeNotices (variant : Variant) (p : Policy) (r : RegionRanges) :
    ∀ notice ∈ variant.rangeNotices p r, notice.isRanges = true := by
  cases variant with
  | addressSets | singleRules =>
    rw [Variant.rangeNotices, List.forall_mem_append, List.forall_mem_map, List.forall_mem_map]
    exact ⟨fun _ _ => rfl, fun _ _ => rfl⟩
  | nftables =>
    rw [Variant.rangeNotices, List.forall_mem_cons]
    refine ⟨rfl, ?_⟩
    split
    · exact List.forall_mem_singleton.2 rfl
    · exact List.forall_mem_nil _

/-- The statements tell the ranges of the regions in order, and not where a region begins. -/
theorem filterMap_notice?_statements (variant : Variant) (p : Policy) :
    (statements variant p).filterMap Line.notice? =
      (ranges variant p).flatMap (variant.rangeNotices p) := by
  rw [statements, List.filterMap_append, filterMap_notice?_filter_isStatement,
    filterMap_notice?_body, List.filter_flatMap]
  show [] ++ _ = _
  rw [List.nil_append]
  congr 1
  funext r
  rw [List.filter_cons_of_neg Bool.false_ne_true]
  exact List.filter_eq_self.2 (isRanges_of_mem_rangeNotices variant p r)

/-- Every section has statements, and the first one has the first range of the region. -/
theorem exists_rangeNotices_eq_cons (variant : Variant) (p : Policy) (region : String) :
    ∃ cidrs more, variant.rangeNotices p (regionRanges variant p region) =
      .ranges variant.style .v4 (Synthesis.v4Cidr (Synthesis.seed region) 0 :: cidrs) :: more := by
  obtain ⟨ranges, hranges⟩ := exists_regionRanges_v4_eq_cons variant p region
  cases variant with
  | addressSets | singleRules =>
    rw [Variant.rangeNotices, hranges]
    exact ⟨[], _, rfl⟩
  | nftables =>
    rw [Variant.rangeNotices, hranges]
    exact ⟨_, _, rfl⟩

/-! ## What statements tell -/

/-- Blocks in a row tell where each one begins, if the first member of a block tells the block. -/
theorem eq_of_flatMap_eq {α β : Type} {f : α → List β} (hne : ∀ a, f a ≠ [])
    (hhead : ∀ a b, (f a).head? = (f b).head? → a = b) {xs ys : List α}
    (h : xs.flatMap f = ys.flatMap f) : xs = ys := by
  induction xs generalizing ys with
  | nil =>
    cases ys with
    | nil => rfl
    | cons y ys => exact absurd h.symm (by simp [hne])
  | cons x xs ih =>
    cases ys with
    | nil => exact absurd h (by simp [hne])
    | cons y ys =>
      rw [List.flatMap_cons, List.flatMap_cons] at h
      have hfirst := congrArg List.head? h
      rw [List.head?_append_of_ne_nil _ (hne x), List.head?_append_of_ne_nil _ (hne y)] at hfirst
      obtain rfl := hhead x y hfirst
      rw [ih (List.append_cancel_left h)]

theorem flatMap_rangeNotices (variant : Variant) (p : Policy) :
    (ranges variant p).flatMap (variant.rangeNotices p) =
      p.effectiveRegions.flatMap fun code =>
        variant.rangeNotices p (regionRanges variant p code.text) := by
  rw [ranges, Policy.targets, List.map_map, List.flatMap_map]
  rfl

/-- The first range that is installed tells the variant. -/
theorem variant_eq_of_notices {v w : Variant} {p q : Policy}
    (h : (ranges v p).flatMap (v.rangeNotices p) = (ranges w q).flatMap (w.rangeNotices q)) :
    v = w := by
  have hstyle : v.style = w.style := by
    obtain ⟨a, as, ha⟩ := List.exists_cons_of_ne_nil (effectiveRegions_ne_nil p)
    obtain ⟨b, bs, hb⟩ := List.exists_cons_of_ne_nil (effectiveRegions_ne_nil q)
    obtain ⟨_, _, hv⟩ := exists_rangeNotices_eq_cons v p a.text
    obtain ⟨_, _, hw⟩ := exists_rangeNotices_eq_cons w q b.text
    rw [flatMap_rangeNotices, flatMap_rangeNotices, ha, hb, List.flatMap_cons, List.flatMap_cons,
      hv, hw, List.cons_append, List.cons_append, List.cons.injEq, Notice.ranges.injEq] at h
    exact h.1.1
  revert hstyle
  cases v <;> cases w <;> decide

/-- There are IPv6 ranges exactly if the policy is about them. -/
theorem exists_v6_notice_iff (variant : Variant) (p : Policy) :
    (∃ style cidrs, .ranges style .v6 cidrs ∈
      (ranges variant p).flatMap (variant.rangeNotices p)) ↔ p.useIPv6 = true := by
  constructor
  · rintro ⟨style, cidrs, hmem⟩
    by_contra hv6
    rw [Bool.not_eq_true] at hv6
    obtain ⟨r, hr, hmem⟩ := List.mem_flatMap.1 hmem
    have hnil := (isReadable_ranges variant p r hr).v6_eq_nil hv6
    cases variant <;> simp [Variant.rangeNotices, hnil, hv6] at hmem
  · intro hv6
    obtain ⟨code, codes, hcodes⟩ := List.exists_cons_of_ne_nil (effectiveRegions_ne_nil p)
    obtain ⟨more, hmore⟩ := exists_synthesize_eq_cons code.text .v6 variant.counts_v6_pos
    have hfirst : ∃ cidrs, .ranges variant.style .v6 cidrs ∈
        variant.rangeNotices p (regionRanges variant p code.text) := by
      cases variant with
      | addressSets | singleRules =>
        refine ⟨[Synthesis.cidr .v6 (Synthesis.seed code.text) 0], ?_⟩
        simp [Variant.rangeNotices, regionRanges, hv6, hmore]
      | nftables =>
        refine ⟨(synthesize code.text .v6 Variant.nftables.counts.v6).map (·.cidr), ?_⟩
        simp [Variant.rangeNotices, regionRanges, hv6, Variant.style]
    obtain ⟨cidrs, hmem⟩ := hfirst
    refine ⟨variant.style, cidrs, ?_⟩
    rw [flatMap_rangeNotices, hcodes, List.flatMap_cons]
    exact List.mem_append_left _ hmem

/-- The sections tell the regions. -/
theorem effectiveRegions_eq_of_notices {v : Variant} {p q : Policy} (hv6 : p.useIPv6 = q.useIPv6)
    (h : (ranges v p).flatMap (v.rangeNotices p) = (ranges v q).flatMap (v.rangeNotices q)) :
    p.effectiveRegions = q.effectiveRegions := by
  have hsection : ∀ code : RegionCode, v.rangeNotices q (regionRanges v q code.text) =
      v.rangeNotices p (regionRanges v p code.text) := by
    intro code
    cases v <;> simp [Variant.rangeNotices, regionRanges, hv6]
  rw [flatMap_rangeNotices, flatMap_rangeNotices] at h
  simp only [hsection] at h
  refine eq_of_flatMap_eq (fun a => ?_) (fun a b hab => ?_) h
  · obtain ⟨_, _, ha⟩ := exists_rangeNotices_eq_cons v p a.text
    rw [ha]
    exact List.cons_ne_nil _ _
  · obtain ⟨_, _, ha⟩ := exists_rangeNotices_eq_cons v p a.text
    obtain ⟨_, _, hb⟩ := exists_rangeNotices_eq_cons v p b.text
    rw [ha, hb, List.head?_cons, List.head?_cons, Option.some_inj, Notice.ranges.injEq] at hab
    exact Synthesis.v4Cidr_seed_injective (List.cons.inj hab.2.2).1

/-- The rules among the statements. -/
theorem filterMap_verb?_statements (t : Timestamp) (variant : Variant) (p : Policy) :
    (statements variant p).filterMap Line.verb? =
      (script t variant p).filterMap Line.verb? := by
  rw [← filter_isStatement_script t, List.filterMap_filter]
  refine List.filterMap_congr fun l _ => ?_
  cases l <;> rfl

/-- Each rule tells the action. -/
theorem action_eq_of_verbs {v : Variant} {p q : Policy}
    (h : (statements v p).filterMap Line.verb? = (statements v q).filterMap Line.verb?) :
    p.action = q.action := by
  rw [filterMap_verb?_statements ⟨0, 0⟩, filterMap_verb?_statements ⟨0, 0⟩] at h
  obtain ⟨rule, hrule⟩ := List.exists_mem_of_ne_nil _ (filterMap_verb?_script_ne_nil ⟨0, 0⟩ v p)
  have hp := eq_of_mem_filterMap_verb? hrule
  rw [h] at hrule
  have hq := eq_of_mem_filterMap_verb? hrule
  exact Action.verb_injective (congrArg Prod.snd (hp.symm.trans hq))

theorem wellFormed_statements (variant : Variant) (p : Policy) :
    ∀ l ∈ statements variant p, l.WellFormed := by
  rw [← filter_isStatement_script ⟨0, 0⟩]
  exact fun l hl => wellFormed_script ⟨0, 0⟩ variant p l (List.mem_filter.1 hl).1

/-- The statements of a policy depend on these settings alone. -/
theorem statements_congr {v : Variant} {p q : Policy}
    (hregions : p.effectiveRegions = q.effectiveRegions) (hbackend : p.backend = q.backend)
    (haction : p.action = q.action) (hv6 : p.useIPv6 = q.useIPv6)
    (hset : v.backend = .iptables → p.useAddressSet = q.useAddressSet) :
    statements v p = statements v q := by
  have hranges : ranges v p = ranges v q := by
    simp [ranges, Policy.targets, regionRanges, hregions, hv6]
  have hbody : v.body p (ranges v q) = v.body q (ranges v q) := by
    have hfamilies : Variant.families p = Variant.families q := by
      simp [Variant.families, hv6]
    cases v with
    | addressSets | singleRules =>
      simp [Variant.body, Variant.setBody, Variant.ruleBody, Variant.preflight, Variant.links,
        hfamilies, haction, hv6, hset rfl]
    | nftables =>
      have hsection : Variant.bulkSection p = Variant.bulkSection q := by
        funext r
        simp [Variant.bulkSection, hv6]
      simp [Variant.body, Variant.nftBody, hfamilies, haction, hsection]
  rw [statements, statements, hbackend, hranges, hbody]

/-- Parity of compiled scripts is exact. Whatever the two times, the scripts of two policies are on
a par if and only if the policies are about the same regions in the same order, with the same
backend, action and families, and with the same use of sets where the backend leaves a choice. -/
theorem isMatch_compare_compile_iff {p q : Policy} (hp : p.backend.isImplemented = true)
    (hq : q.backend.isImplemented = true) (s t : Timestamp) :
    ∃ c d, compile s p = .ok c ∧ compile t q = .ok d ∧
      ((ParityReport.compare c.script d.script).isMatch = true ↔
        p.effectiveRegions = q.effectiveRegions ∧ p.backend = q.backend ∧ p.action = q.action ∧
          p.useIPv6 = q.useIPv6 ∧ (p.backend = .iptables → p.useAddressSet = q.useAddressSet)) := by
  obtain ⟨v, hv⟩ := Variant.exists_ofPolicy_eq_ok hp
  obtain ⟨w, hw⟩ := Variant.exists_ofPolicy_eq_ok hq
  refine ⟨_, _, compile_eq_ok_iff.2 ⟨v, hv, rfl⟩, compile_eq_ok_iff.2 ⟨w, hw, rfl⟩, ?_⟩
  dsimp only
  rw [ParityReport.isMatch_compare_iff, significantLines_script, significantLines_script]
  constructor
  · intro h
    have hnotices := congrArg (List.filterMap readNotice?) h
    have hverbs := congrArg (List.filterMap readVerb?) h
    rw [filterMap_readNotice?_text _ (wellFormed_statements v p),
      filterMap_readNotice?_text _ (wellFormed_statements w q), filterMap_notice?_statements,
      filterMap_notice?_statements] at hnotices
    rw [filterMap_readVerb?_text _ (wellFormed_statements v p),
      filterMap_readVerb?_text _ (wellFormed_statements w q)] at hverbs
    obtain rfl := variant_eq_of_notices hnotices
    have hv6 : p.useIPv6 = q.useIPv6 := by
      rw [Bool.eq_iff_iff, ← exists_v6_notice_iff v p, hnotices, exists_v6_notice_iff]
    obtain ⟨hpv, hpset⟩ := Variant.ofPolicy_eq_ok_iff.1 hv
    obtain ⟨hqv, hqset⟩ := Variant.ofPolicy_eq_ok_iff.1 hw
    have hbackend : p.backend = q.backend := hpv.trans hqv.symm
    refine ⟨effectiveRegions_eq_of_notices hv6 hnotices, hbackend, action_eq_of_verbs hverbs, hv6,
      fun hb => ?_⟩
    rw [Bool.eq_iff_iff, hpset hb, hqset (hbackend ▸ hb)]
  · rintro ⟨hregions, hbackend, haction, hv6, hset⟩
    have hsame : Variant.ofPolicy p = Variant.ofPolicy q := by
      unfold Variant.ofPolicy
      rw [← hbackend]
      cases hb : p.backend with
      | iptables => rw [hset hb]
      | nftables | ebpf | ebtables | ipfw => rfl
    obtain rfl : v = w := Except.ok.inj (hv.symm.trans (hsame.trans hw))
    have hpv := (Variant.ofPolicy_eq_ok_iff.1 hv).1
    rw [statements_congr hregions hbackend haction hv6 fun hb => hset (hpv.trans hb)]

/-- A policy without regions and one that names the default region, with different use of sets in
the backend that does not ask. -/
theorem isMatch_compare_compile_iff_default :
    ∃ c d, compile ⟨0, 0⟩ { backend := .nftables } = .ok c ∧
      compile ⟨1, 0⟩ { regions := [.default], backend := .nftables, useAddressSet := false } =
        .ok d ∧
      (ParityReport.compare c.script d.script).isMatch = true := by
  obtain ⟨c, d, hc, hd, hiff⟩ := isMatch_compare_compile_iff
    (p := { backend := .nftables })
    (q := { regions := [.default], backend := .nftables, useAddressSet := false }) rfl rfl
    ⟨0, 0⟩ ⟨1, 0⟩
  exact ⟨c, d, hc, hd, hiff.2 (by decide)⟩

end Compiler

end GeoPolicy

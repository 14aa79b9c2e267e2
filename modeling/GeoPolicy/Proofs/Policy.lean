import GeoPolicy.Compiler
import GeoPolicy.Proofs.Script.Frame
import Mathlib.Data.List.Nodup
import Mathlib.Data.List.Perm.Subperm

/-!
# Policies and drafts

A draft with the settings of a policy is built into that policy: codes, once checked, are left as
they are. Compiling depends on the effective regions and the other settings alone. Regions are
never repeated, so their number is bounded.
-/

namespace GeoPolicy

open Text

/-! ## Codes -/

/-- A capital is its own upper case. -/
theorem Text.upperChar_of_isUpper {c : Char} (h : c.isUpper = true) : upperChar c = [c] := by
  have hrange := (isUpper_iff_toNat c).1 h
  have hlower : ¬(c.val ≥ 'a'.val ∧ c.val ≤ 'z'.val) := by
    rintro ⟨ha, -⟩
    have ha' : 97 ≤ c.toNat := ha
    omega
  have hself : c.toUpper = c := dif_neg hlower
  rw [upperChar, if_pos (by omega), hself]

/-- A code is read as itself. -/
theorem RegionCode.parse_text (r : RegionCode) : parse r.text = .ok r := by
  have htrim : trimChars r.text.toList = r.chars := by
    rw [trimChars_word (Script.isWord_text r), text, String.toList_ofList]
  have hupper : upper r.chars = r.chars := by
    simp [upper, chars, upperChar_of_isUpper r.first_isUpper, upperChar_of_isUpper r.second_isUpper]
  have hcode : ofChars? r.chars = some r := dif_pos ⟨r.first_isUpper, r.second_isUpper⟩
  rw [parse, htrim, hupper, hcode]

/-! ## Drafts -/

theorem RegionCode.mapM_parse_text (codes : List RegionCode) :
    (codes.map text).mapM parse = .ok codes := by
  induction codes with
  | nil => rfl
  | cons r codes ih =>
    rw [List.map_cons, List.mapM_cons, parse_text, ih]
    rfl

theorem PolicyDraft.build_of_error {d : PolicyDraft} {e : Error}
    (h : d.regions.mapM RegionCode.parse = .error e) : d.build = .error e := by
  rw [build, h]
  rfl

/-- A draft whose texts are read as codes is built, with each code once. -/
theorem PolicyDraft.build_of_codes {d : PolicyDraft} {codes : List RegionCode}
    (h : d.regions.mapM RegionCode.parse = .ok codes) :
    d.build = .ok {
      regions := distinct codes
      backend := d.backend
      action := d.action
      useAddressSet := d.useAddressSet
      useIPv6 := d.useIPv6
      regions_nodup := distinct_nodup codes } := by
  rw [build, h]
  rfl

/-! ## Effective regions -/

theorem Policy.effectiveRegions_nodup (p : Policy) : p.effectiveRegions.Nodup := by
  rw [effectiveRegions]
  split
  · exact List.nodup_singleton _
  · exact p.regions_nodup

/-- Different regions have different seeds, and all seeds are small. -/
theorem Policy.length_effectiveRegions_le (p : Policy) : p.effectiveRegions.length ≤ 2881 := by
  have hnodup : (p.effectiveRegions.map fun r => Synthesis.seed r.text).Nodup :=
    p.effectiveRegions_nodup.map fun _ _ => Synthesis.seed_text_injective
  have hsub : p.effectiveRegions.map (fun r => Synthesis.seed r.text) ⊆ List.range 2881 := by
    intro n hn
    obtain ⟨r, -, rfl⟩ := List.mem_map.1 hn
    exact List.mem_range.2 (Nat.lt_succ_of_le (Synthesis.seed_text_bounds r).2)
  simpa using (hnodup.subperm hsub).length_le

/-! ## Compiling -/

/-- Compiling looks at the regions only through the effective ones. -/
theorem Compiler.compile_congr {p q : Policy} (hregions : p.effectiveRegions = q.effectiveRegions)
    (hbackend : p.backend = q.backend) (haction : p.action = q.action)
    (hset : p.useAddressSet = q.useAddressSet) (hv6 : p.useIPv6 = q.useIPv6) (t : Timestamp) :
    compile t p = compile t q := by
  have htargets : p.targets = q.targets := by rw [Policy.targets, Policy.targets, hregions]
  obtain ⟨regions, backend, action, useAddressSet, useIPv6, hnodup⟩ := p
  obtain ⟨regions', backend', action', useAddressSet', useIPv6', hnodup'⟩ := q
  dsimp only at hbackend haction hset hv6
  subst hbackend haction hset hv6
  unfold compile script header footer ranges
  rw [htargets]
  rfl

end GeoPolicy

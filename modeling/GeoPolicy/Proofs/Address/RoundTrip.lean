import GeoPolicy.Proofs.Address.Groups
import Mathlib.Algebra.Group.Nat.Defs

/-!
# Reading canonical texts of addresses

Every address is read back from its canonical text, be it four octets, eight groups, groups around
the mark for a run of zeros, or the octets of an IPv4 address inside an IPv6 one.

## Main definitions

* `Address.Run.IsZeros` — a run of members that are all zero.
-/

namespace GeoPolicy

/-! ## Numbers and their groups -/

theorem length_splitGroups (base count n : Nat) : (splitGroups base count n).length = count := by
  induction count generalizing n with
  | zero => rfl
  | succ count ih => rw [splitGroups, List.length_append, ih, List.length_singleton]

theorem lt_of_mem_splitGroups {base : Nat} (hb : 0 < base) {count n : Nat} :
    ∀ g ∈ splitGroups base count n, g < base := by
  induction count generalizing n with
  | zero => exact fun g hg => absurd hg List.not_mem_nil
  | succ count ih =>
    rw [splitGroups]
    exact List.forall_mem_append.2 ⟨ih, List.forall_mem_singleton.2 (Nat.mod_lt n hb)⟩

/-- Groups are joined to the number again, up to what the first group leaves out. -/
theorem joinGroups_splitGroups (base count n : Nat) :
    joinGroups base (splitGroups base count n) = n % base ^ count := by
  induction count generalizing n with
  | zero => simp [splitGroups, joinGroups, Nat.mod_one]
  | succ count ih =>
    rw [splitGroups, joinGroups_append_singleton, ih, Nat.pow_succ', Nat.mod_mul, Nat.mul_comm,
      Nat.add_comm]

namespace Address

open Text

theorem ofOctets_splitGroups (bits : BitVec 32) :
    ofOctets (splitGroups 256 4 bits.toNat) = v4 bits := by
  have hbits : bits.toNat < 256 ^ 4 := bits.isLt
  rw [ofOctets, joinGroups_splitGroups, Nat.mod_eq_of_lt hbits, BitVec.ofNat_toNat,
    BitVec.setWidth_eq]

theorem ofGroups_splitGroups (bits : BitVec 128) :
    ofGroups (splitGroups 65536 8 bits.toNat) = v6 bits := by
  have hbits : bits.toNat < 65536 ^ 8 := bits.isLt
  rw [ofGroups, joinGroups_splitGroups, Nat.mod_eq_of_lt hbits, BitVec.ofNat_toNat,
    BitVec.setWidth_eq]

/-- The last two groups of a number are made of its last 32 bits. -/
theorem splitGroups_eight (n : Nat) :
    splitGroups 65536 8 n =
      splitGroups 65536 6 (n / 65536 / 65536) ++ splitGroups 65536 2 (n % 2 ^ 32) := by
  have hhigh : n % 65536 = n % 2 ^ 32 % 65536 := by omega
  have hlow : n / 65536 % 65536 = n % 2 ^ 32 / 65536 % 65536 := by omega
  simp only [splitGroups, List.nil_append, hhigh, hlow, List.cons_append]

/-! ## Texts -/

theorem intercalate_cons (c : Char) (s : List Char) (ls : List (List Char)) :
    [c].intercalate (s :: ls) = s ++ ls.flatMap (c :: ·) := by
  induction ls generalizing s with
  | nil => simp [List.intercalate]
  | cons t ls ih => simp [List.intercalate_cons_cons, ih]

theorem toList_octetsText {n first : Nat} {octets : List Nat}
    (h : splitGroups 256 4 n = first :: octets) :
    (octetsText n).toList =
      Nat.toDigits 10 first ++ octets.flatMap fun n => '.' :: Nat.toDigits 10 n := by
  rw [octetsText, String.toList_intercalate, h, List.map_cons, List.map_cons]
  show ['.'].intercalate _ = _
  rw [intercalate_cons, List.map_map, List.flatMap_map]
  simp

theorem toList_groupsText (groups : List Nat) :
    (groupsText groups).toList = groupChars 0 groups := by
  have hpadded : ∀ g, Nat.toDigits 16 g = paddedDigits 16 0 g := by
    intro g
    simp [paddedDigits, List.leftpad]
  cases groups with
  | nil => rfl
  | cons g groups =>
    rw [groupsText, String.toList_intercalate, List.map_cons, List.map_cons]
    show [':'].intercalate _ = _
    rw [intercalate_cons, List.map_map, List.flatMap_map]
    simp [groupChars, rowChars, hpadded]

theorem readOctets?_octetsText (n : Nat) :
    readOctets? 4 true (octetsText n).toList = some (splitGroups 256 4 n, []) := by
  have hlength := length_splitGroups 256 4 n
  have hoctets : ∀ o ∈ splitGroups 256 4 n, o ≤ 255 := fun o ho =>
    Nat.le_of_lt_succ (lt_of_mem_splitGroups (by decide) o ho)
  cases hsplit : splitGroups 256 4 n with
  | nil => rw [hsplit] at hlength; exact absurd hlength (by decide)
  | cons first octets =>
    rw [hsplit] at hlength hoctets
    rw [toList_octetsText hsplit]
    exact readOctets?_octets first octets (Nat.succ.inj hlength) hoctets

theorem ofChars?_octetsText (n : Nat) :
    ofChars? (octetsText n).toList = some (ofOctets (splitGroups 256 4 n)) := by
  rw [ofChars?, readOctets?_octetsText]
  rfl

/-! ## Runs of zeros -/

/-- All members of a run are zero. -/
def Run.IsZeros (r : Run) (groups : List Nat) : Prop :=
  ∀ i, r.start ≤ i → i < r.start + r.length → groups[i]? = some 0

/-- The run that ends just before the rest of a list, and the longest one so far, hold zeros. -/
theorem isZeros_longestZeros {groups rest : List Nat} {index : Nat}
    (hrest : groups.drop index = rest)
    {current longest : Run} (hcurrent : current.IsZeros groups)
    (hend : current.length = 0 ∨ current.start + current.length = index)
    (hlongest : longest.IsZeros groups) :
    (longestZeros index current longest rest).IsZeros groups := by
  induction rest generalizing index current longest with
  | nil => exact hlongest
  | cons g rest ih =>
    have hindex : groups[index]? = some g := by
      rw [← List.head?_drop, hrest, List.head?_cons]
    have hdrop : groups.drop (index + 1) = rest := by
      rw [← List.drop_drop, hrest, List.drop_one, List.tail_cons]
    rw [longestZeros]
    by_cases hg : g = 0
    · subst hg
      obtain ⟨start, hstart⟩ :
          ∃ start, start = if current.length = 0 then index else current.start := ⟨_, rfl⟩
      have hnext : Run.IsZeros ⟨start, current.length + 1⟩ groups := by
        intro i hi hi'
        dsimp only at hi hi'
        by_cases hlast : i = index
        · rw [hlast, hindex]
        · apply hcurrent i <;> split at hstart <;> omega
      rw [if_pos rfl, ← hstart]
      apply ih hdrop hnext
      · dsimp only
        split at hstart <;> omega
      · split
        · exact hnext
        · exact hlongest
    · rw [if_neg hg]
      refine ih hdrop (fun i _ hi => ?_) (.inl rfl) hlongest
      exact absurd hi (Nat.not_lt_zero i)

/-- A run of zeros cuts a list into what is before it, the zeros, and what is after it. -/
theorem Run.IsZeros.eq_append {r : Run} {groups : List Nat} (h : r.IsZeros groups) :
    groups = groups.take r.start ++ List.replicate r.length 0 ++
      groups.drop (r.start + r.length) := by
  have hzeros : (groups.drop r.start).take r.length = List.replicate r.length 0 := by
    apply List.ext_getElem?
    intro i
    by_cases hi : i < r.length
    · simp [hi, h (r.start + i) (by omega) (by omega)]
    · rw [List.getElem?_eq_none (by simp; omega), List.getElem?_eq_none (by simpa using hi)]
  rw [← hzeros, List.append_assoc, ← List.drop_drop, List.take_append_drop,
    List.take_append_drop]

/-- A run of at least two zeros ends inside the list. -/
theorem Run.IsZeros.end_le {r : Run} {groups : List Nat} (h : r.IsZeros groups)
    (hlength : 1 < r.length) : r.start + r.length ≤ groups.length := by
  have hlast := h (r.start + r.length - 1) (by omega) (by omega)
  obtain ⟨hlt, -⟩ := List.getElem?_eq_some_iff.1 hlast
  omega

/-! ## Addresses -/

/-- The octets of an IPv4 address inside an IPv6 one. -/
theorem ofChars?_mapped {n : Nat} (hn : n < 2 ^ 32) :
    ofChars? ("::ffff:" ++ octetsText n).toList =
      some (ofGroups ([0, 0, 0, 0, 0, 0xffff] ++ splitGroups 65536 2 n)) := by
  have hjoin : joinGroups 256 (splitGroups 256 4 n) = n := by
    rw [joinGroups_splitGroups, Nat.mod_eq_of_lt (by omega)]
  have hoctets := readGroups_octets (readOctets?_octetsText n) 4
  rw [hjoin] at hoctets
  have hends := EndsGroup.colon (octetsText n).toList
  have hgroup := readGroup?_paddedDigits (Nat.zero_le 4) 0xffff hends
  have hread := (readGroups_succ (readOctets?_paddedDigits 0 0xffff hends 2) hgroup hoctets).1
  have htext : ("::ffff:" ++ octetsText n).toList = groupChars 0 [] ++ ':' :: ':' ::
      (paddedDigits 16 0 0xffff ++ ':' :: (octetsText n).toList) := by
    rw [String.toList_append]
    rfl
  have hlength := length_splitGroups 65536 2 n
  rw [htext, ofChars?_mark (by decide) (List.forall_mem_nil _) (by decide) hread]
  simp [hlength, List.replicate]

/-- Groups around the mark for a run of zeros. -/
theorem ofChars?_compressed {groups : List Nat} (hgroups : ∀ g ∈ groups, g < 65536)
    (hlength : groups.length = 8) {zeros : Run} (hzeros : zeros.IsZeros groups)
    (hlong : 1 < zeros.length) :
    ofChars? (groupsText (groups.take zeros.start) ++ "::" ++
        groupsText (groups.drop (zeros.start + zeros.length))).toList = some (ofGroups groups) := by
  have hend := hzeros.end_le hlong
  have hsplit := hzeros.eq_append
  have hhead : (groups.take zeros.start).length = zeros.start := by
    rw [List.length_take]
    omega
  have htail : (groups.drop (zeros.start + zeros.length)).length =
      8 - (zeros.start + zeros.length) := by
    rw [List.length_drop, hlength]
  have hgroups_head : ∀ g ∈ groups.take zeros.start, g < 65536 :=
    fun g hg => hgroups g (List.mem_of_mem_take hg)
  have hgroups_tail : ∀ g ∈ groups.drop (zeros.start + zeros.length), g < 65536 :=
    fun g hg => hgroups g (List.mem_of_mem_drop hg)
  have hread := readGroups_groupChars_append (Nat.zero_le 4) hgroups_tail .nil
    (readGroups_nil (zeros.length - 1))
  rw [List.append_nil, List.append_nil, htail,
    show 8 - (zeros.start + zeros.length) + (zeros.length - 1) = 7 - zeros.start by omega] at hread
  have haddress := ofChars?_mark (Nat.zero_le 4) hgroups_head (by omega) (hhead.symm ▸ hread)
  have hrun : 8 - zeros.start - (8 - (zeros.start + zeros.length)) = zeros.length := by omega
  rw [hhead, htail, hrun, ← hsplit] at haddress
  rw [String.toList_append, String.toList_append, toList_groupsText, toList_groupsText,
    List.append_assoc]
  exact haddress

theorem ofChars?_text_v6 (bits : BitVec 128) :
    ofChars? (text (v6 bits)).toList = some (v6 bits) := by
  have hlength := length_splitGroups 65536 8 bits.toNat
  have hgroups : ∀ g ∈ splitGroups 65536 8 bits.toNat, g < 65536 :=
    lt_of_mem_splitGroups (by decide)
  have hzeros : Run.IsZeros (longestZeros 0 ⟨0, 0⟩ ⟨0, 0⟩ (splitGroups 65536 8 bits.toNat))
      (splitGroups 65536 8 bits.toNat) := by
    have hnone : Run.IsZeros ⟨0, 0⟩ (splitGroups 65536 8 bits.toNat) :=
      fun i _ hi => absurd hi (Nat.not_lt_zero i)
    exact isZeros_longestZeros List.drop_zero hnone (.inl rfl) hnone
  rw [← congrArg some (ofGroups_splitGroups bits)]
  unfold text
  dsimp only
  split
  · next hmapped =>
    have hsplit := splitGroups_eight bits.toNat
    have hhigh : splitGroups 65536 6 (bits.toNat / 65536 / 65536) = [0, 0, 0, 0, 0, 0xffff] := by
      rwa [hsplit, List.take_left' (length_splitGroups 65536 6 _)] at hmapped
    rw [BitVec.toNat_setWidth, ofChars?_mapped (Nat.mod_lt _ (by decide)), hsplit, hhigh]
  · split
    · next hlong => exact ofChars?_compressed hgroups hlength hzeros hlong
    · rw [toList_groupsText, ofChars?_groupChars (by decide) hgroups hlength]

/-- Reading undoes writing. -/
theorem parse?_text (a : Address) : parse? a.text = some a := by
  cases a with
  | v4 bits =>
    exact (ofChars?_octetsText bits.toNat).trans (congrArg some (ofOctets_splitGroups bits))
  | v6 bits => exact ofChars?_text_v6 bits

end Address

end GeoPolicy

import GeoPolicy.Proofs.Address.Reading

/-!
# Reading the groups of IPv6 addresses

An IPv6 text is a row of hexadecimal groups with colons between them, and the mark `::` for a run
of zeros. The readers take groups with or without zeros in front, stop at the first group of more
than 16 bits, and mistake none of them for octets.

## Main definitions

* `Address.EndsGroup` — what may follow a group.
* `Address.groupChars`, `Address.rowChars` — groups as they are written, alone and after a colon.
-/

namespace GeoPolicy

open Text

/-! ## Numerals of a fixed width -/

theorem Text.exists_paddedDigits_eq_map (width n : Nat) :
    ∃ digits : List Nat, paddedDigits 16 width n = digits.map Nat.digitChar ∧
      (∀ d ∈ digits, d < 16) ∧ joinGroups 16 digits = n := by
  obtain ⟨digits, hdigits, hlt, hjoin, -⟩ := exists_toDigits_eq_map (by decide : 1 < 16) n
  have hzeros : ∀ count, joinGroups 16 (List.replicate count 0 ++ digits) = n := by
    intro count
    induction count with
    | zero => exact hjoin
    | succ count ih => exact ih
  refine ⟨List.replicate (width - (Nat.toDigits 16 n).length) 0 ++ digits, ?_, ?_, hzeros _⟩
  · rw [paddedDigits, List.leftpad, hdigits, List.map_append, List.map_replicate]
    rfl
  · intro d hd
    obtain hd | hd := List.mem_append.1 hd
    · rw [List.eq_of_mem_replicate hd]
      decide
    · exact hlt d hd

theorem Text.length_paddedDigits_le_iff {width n : Nat} (hw : width ≤ 4) :
    (paddedDigits 16 width n).length ≤ 4 ↔ n < 65536 := by
  have hlength := Nat.length_toDigits_le_iff (b := 16) (k := 4) (n := n) (by decide) (by decide)
  rw [paddedDigits, List.length_leftpad]
  omega

namespace Address

/-! ## One group -/

/-- A text whose first character goes on neither with a group nor with an octet. -/
def EndsGroup (rest : List Char) : Prop :=
  ∀ c ∈ rest.head?, hexValue? c = none ∧ c ≠ '.'

theorem EndsGroup.nil : EndsGroup [] := by
  intro c hc
  exact absurd hc (by simp)

theorem EndsGroup.colon (rest : List Char) : EndsGroup (':' :: rest) := by
  intro c hc
  obtain rfl : ':' = c := by simpa using hc
  decide

theorem EndsGroup.takeDigits_eq {rest : List Char} (h : EndsGroup rest) (base : Nat) :
    takeDigits base rest = ([], rest) := by
  cases rest with
  | nil => rfl
  | cons c rest => simp [takeDigits, (h c (by simp)).1]

/-- A numeral is read as a group if it has at most 16 bits. -/
theorem readGroup?_paddedDigits {width : Nat} (hw : width ≤ 4) (n : Nat) {rest : List Char}
    (hrest : EndsGroup rest) :
    readGroup? (paddedDigits 16 width n ++ rest) = if n < 65536 then some (n, rest) else none := by
  have hlength := length_paddedDigits_le_iff (n := n) hw
  have hne : paddedDigits 16 width n ≠ [] :=
    (isNumeral_paddedDigits width n).ne_nil
  obtain ⟨digits, hdigits, hlt, hjoin⟩ := exists_paddedDigits_eq_map width n
  rw [hdigits] at hlength hne
  rw [List.length_map] at hlength
  have hne : digits ≠ [] := by simpa using hne
  rw [readGroup?, hdigits, takeDigits_map_digitChar (by decide) digits hlt, hrest.takeDigits_eq,
    List.append_nil]
  dsimp only
  rw [hjoin]
  by_cases hn : n < 65536
  · rw [if_neg (by simp [hne, hlength.2 hn]), if_pos hn]
  · rw [if_pos (.inr (not_le.1 (mt hlength.1 hn))), if_neg hn]

/-! ## No octets -/

theorem rest_of_readOctet? {s rest : List Char} {n : Nat} (h : readOctet? s = some (n, rest)) :
    rest = (takeDigits 10 s).2 := by
  unfold readOctet? at h
  dsimp only at h
  split at h
  · exact absurd h (by simp)
  · exact (congrArg Prod.snd (Option.some.inj h)).symm

/-- After the first octet comes a dot. -/
theorem readOctets?_eq_none {s : List Char} (h : (takeDigits 10 s).2.head? ≠ some '.')
    (count : Nat) : readOctets? (count + 2) true s = none := by
  unfold readOctets?
  cases hoctet : readOctet? s with
  | none => simp [hoctet]
  | some octet =>
    obtain ⟨n, rest⟩ := octet
    have hmore : readOctets? (count + 1) false rest = none := by
      rw [← rest_of_readOctet? hoctet] at h
      unfold readOctets?
      cases rest with
      | nil => rfl
      | cons c rest =>
        have hc : c ≠ '.' := by
          rintro rfl
          exact h rfl
        simp [hc]
    simp [hoctet, hmore]

theorem head?_takeDigits_ne_dot {s rest : List Char} (hs : ∀ c ∈ s, c ∈ digitChars)
    (hrest : EndsGroup rest) : (takeDigits 10 (s ++ rest)).2.head? ≠ some '.' := by
  induction s with
  | nil =>
    rw [List.nil_append, hrest.takeDigits_eq]
    intro hdot
    exact (hrest '.' hdot).2 rfl
  | cons c s ih =>
    have hc : c ≠ '.' := by
      rintro rfl
      exact absurd (hs '.' List.mem_cons_self) (by decide)
    have hs := ih fun d hd => hs d (List.mem_cons_of_mem c hd)
    rw [List.cons_append, takeDigits]
    split
    · exact hs
    · simpa using hc

/-- A group that a colon follows, or nothing, is no octet. -/
theorem readOctets?_paddedDigits (width n : Nat) {rest : List Char} (hrest : EndsGroup rest)
    (count : Nat) : readOctets? (count + 2) true (paddedDigits 16 width n ++ rest) = none := by
  refine readOctets?_eq_none (head?_takeDigits_ne_dot ?_ hrest) count
  exact mem_digitChars_of_mem_paddedDigits

/-! ## Rows of groups -/

/-- A group after its colon, and the groups after it. -/
def rowChars (width : Nat) (groups : List Nat) : List Char :=
  groups.flatMap fun g => ':' :: paddedDigits 16 width g

/-- Groups with colons between them, each of at least `width` digits. -/
def groupChars (width : Nat) : List Nat → List Char
  | [] => []
  | g :: groups => paddedDigits 16 width g ++ rowChars width groups

theorem endsGroup_rowChars_append (width : Nat) (groups : List Nat) {rest : List Char}
    (hrest : EndsGroup rest) : EndsGroup (rowChars width groups ++ rest) := by
  cases groups with
  | nil => exact hrest
  | cons g groups => exact .colon _

/-- Groups are read one by one, each but the first one after its colon. -/
theorem readGroups_succ {limit g : Nat} {s rest : List Char} {groups : List Nat} {after : List Char}
    {hasOctets : Bool} (hoctets : readOctets? 4 true s = none)
    (hgroup : readGroup? s = some (g, rest))
    (hmore : readGroups limit false rest = (groups, hasOctets, after)) :
    readGroups (limit + 1) true s = (g :: groups, hasOctets, after) ∧
      readGroups (limit + 1) false (':' :: s) = (g :: groups, hasOctets, after) := by
  constructor
  all_goals
    unfold readGroups
    simp [hoctets, hgroup, hmore]

/-- Where there is no group, or none that fits, nothing is read. -/
theorem readGroups_stop {s : List Char} (hoctets : readOctets? 4 true s = none)
    (hgroup : readGroup? s = none) (limit : Nat) :
    readGroups limit true s = ([], false, s) ∧
      readGroups limit false (':' :: s) = ([], false, ':' :: s) := by
  constructor
  all_goals
    unfold readGroups
    cases limit with
    | zero => rfl
    | succ limit => simp [hoctets, hgroup]

/-- Four octets stand for the last two groups. -/
theorem readGroups_octets {s rest : List Char} {octets : List Nat}
    (h : readOctets? 4 true s = some (octets, rest)) (limit : Nat) :
    readGroups (limit + 2) false (':' :: s) =
      (splitGroups 65536 2 (joinGroups 256 octets), true, rest) := by
  unfold readGroups
  simp [h]

theorem EndsGroup.readOctets?_eq_none {rest : List Char} (h : EndsGroup rest) (count : Nat) :
    readOctets? (count + 2) true rest = none :=
  Address.readOctets?_eq_none
    (head?_takeDigits_ne_dot (s := []) (List.forall_mem_nil _) h) count

theorem EndsGroup.readGroup?_eq_none {rest : List Char} (h : EndsGroup rest) :
    readGroup? rest = none := by
  simp [readGroup?, h.takeDigits_eq]

theorem readGroups_nil (limit : Nat) (isFirst : Bool) :
    readGroups limit isFirst [] = ([], false, []) := by
  cases isFirst with
  | true => exact (readGroups_stop (EndsGroup.nil.readOctets?_eq_none 2) rfl limit).1
  | false =>
    unfold readGroups
    cases limit <;> rfl

/-- The mark for a run of zeros ends a row. -/
theorem readGroups_mark (limit : Nat) (isFirst : Bool) (rest : List Char) :
    readGroups limit isFirst (':' :: ':' :: rest) = ([], false, ':' :: ':' :: rest) := by
  have hends := EndsGroup.colon rest
  have hmark := EndsGroup.colon (':' :: rest)
  cases isFirst with
  | true => exact (readGroups_stop (hmark.readOctets?_eq_none 2) hmark.readGroup?_eq_none limit).1
  | false => exact (readGroups_stop (hends.readOctets?_eq_none 2) hends.readGroup?_eq_none limit).2

section Rows

variable {width : Nat} (hw : width ≤ 4) {groups more : List Nat} (hgroups : ∀ g ∈ groups, g < 65536)
  {rest after : List Char} (hrest : EndsGroup rest) {hasOctets : Bool} {limit : Nat}
include hw hgroups hrest

/-- A row of groups is read to its end, and what follows it is read next. -/
theorem readGroups_rowChars_append
    (hmore : readGroups limit false rest = (more, hasOctets, after)) :
    readGroups (groups.length + limit) false (rowChars width groups ++ rest) =
      (groups ++ more, hasOctets, after) := by
  induction groups with
  | nil => simpa [rowChars] using hmore
  | cons g groups ih =>
    have hg : g < 65536 := hgroups g List.mem_cons_self
    have hrow := ih fun h hh => hgroups h (List.mem_cons_of_mem g hh)
    have hends := endsGroup_rowChars_append width groups hrest
    have hgroup := readGroup?_paddedDigits hw g hends
    rw [if_pos hg] at hgroup
    rw [rowChars, List.flatMap_cons, List.append_assoc, List.cons_append, List.length_cons,
      Nat.add_right_comm]
    exact (readGroups_succ (readOctets?_paddedDigits width g hends 2) hgroup hrow).2

/-- The groups at the start of a text are read like those of a row. -/
theorem readGroups_groupChars_append
    (hmore : ∀ isFirst, readGroups limit isFirst rest = (more, hasOctets, after)) :
    readGroups (groups.length + limit) true (groupChars width groups ++ rest) =
      (groups ++ more, hasOctets, after) := by
  cases groups with
  | nil => simpa [groupChars] using hmore true
  | cons g groups =>
    have hg : g < 65536 := hgroups g List.mem_cons_self
    have hrow := readGroups_rowChars_append hw (fun h hh => hgroups h (List.mem_cons_of_mem g hh))
      hrest (hmore false)
    have hends := endsGroup_rowChars_append width groups hrest
    have hgroup := readGroup?_paddedDigits hw g hends
    rw [if_pos hg] at hgroup
    rw [groupChars, List.append_assoc, List.length_cons, Nat.add_right_comm]
    exact (readGroups_succ (readOctets?_paddedDigits width g hends 2) hgroup hrow).1

end Rows

/-! ## Eight groups -/

theorem readOctets?_groupChars_append (width : Nat) (groups : List Nat) {rest : List Char}
    (hrest : EndsGroup rest) (count : Nat) :
    readOctets? (count + 2) true (groupChars width groups ++ rest) = none := by
  cases groups with
  | nil => exact hrest.readOctets?_eq_none count
  | cons g groups =>
    rw [groupChars, List.append_assoc]
    exact readOctets?_paddedDigits width g (endsGroup_rowChars_append width groups hrest) count

/-- Eight groups are an address. -/
theorem ofChars?_groupChars {width : Nat} (hw : width ≤ 4) {groups : List Nat}
    (hgroups : ∀ g ∈ groups, g < 65536) (hlength : groups.length = 8) :
    ofChars? (groupChars width groups) = some (ofGroups groups) := by
  have hread := readGroups_groupChars_append hw hgroups .nil (readGroups_nil 0)
  have hoctets := readOctets?_groupChars_append width groups .nil 2
  rw [List.append_nil] at hread hoctets
  rw [hlength, List.append_nil] at hread
  have height : readEight? (groupChars width groups) = some (groups, []) := by
    rw [readEight?, hread]
    exact if_pos hlength
  rw [ofChars?, hoctets, height]

/-- The mark stands for the groups that are missing. -/
theorem ofChars?_mark {width : Nat} (hw : width ≤ 4) {head tail : List Nat}
    (hhead : ∀ g ∈ head, g < 65536) (hlength : head.length ≤ 7) {s : List Char} {hasOctets : Bool}
    (htail : readGroups (7 - head.length) true s = (tail, hasOctets, [])) :
    ofChars? (groupChars width head ++ ':' :: ':' :: s) =
      some (ofGroups (head ++ List.replicate (8 - head.length - tail.length) 0 ++ tail)) := by
  have hmark := EndsGroup.colon (':' :: s)
  have hread := readGroups_groupChars_append hw hhead hmark fun isFirst =>
    readGroups_mark (8 - head.length) isFirst s
  rw [show head.length + (8 - head.length) = 8 by omega, List.append_nil] at hread
  have height : readEight? (groupChars width head ++ ':' :: ':' :: s) =
      some (head ++ List.replicate (8 - head.length - tail.length) 0 ++ tail, []) := by
    rw [readEight?, hread]
    dsimp only
    rw [if_neg (by omega), if_neg Bool.false_ne_true]
    simp only [htail]
  rw [ofChars?, readOctets?_groupChars_append width head hmark 2, height]

/-- A group of more than 16 bits spoils the text. -/
theorem ofChars?_eq_none {width : Nat} (hw : width ≤ 4) {head : List Nat}
    (hhead : ∀ g ∈ head, g < 65536) (hlength : head.length ≤ 7) {n : Nat} (hn : 65536 ≤ n)
    {rest : List Char} (hrest : EndsGroup rest) :
    ofChars? (groupChars width head ++ ':' :: (paddedDigits 16 width n ++ rest)) = none := by
  have hcolon := EndsGroup.colon (paddedDigits 16 width n ++ rest)
  have hgroup := readGroup?_paddedDigits hw n hrest
  rw [if_neg (by omega)] at hgroup
  have hstop : ∀ isFirst, readGroups (8 - head.length) isFirst
      (':' :: (paddedDigits 16 width n ++ rest)) =
        ([], false, ':' :: (paddedDigits 16 width n ++ rest)) := by
    intro isFirst
    cases isFirst with
    | true =>
      exact (readGroups_stop (hcolon.readOctets?_eq_none 2) hcolon.readGroup?_eq_none _).1
    | false => exact (readGroups_stop (readOctets?_paddedDigits width n hrest 2) hgroup _).2
  have hread := readGroups_groupChars_append hw hhead hcolon hstop
  rw [show head.length + (8 - head.length) = 8 by omega, List.append_nil] at hread
  have hnumeral : IsNumeral (paddedDigits 16 width n) :=
    isNumeral_paddedDigits width n
  obtain ⟨c, digits, hdigits⟩ := List.exists_cons_of_ne_nil hnumeral.ne_nil
  have hc : c ≠ ':' := by
    rintro rfl
    exact hnumeral.not_mem (c := ':') rfl (by simp [hdigits])
  have height : readEight? (groupChars width head ++ ':' :: (paddedDigits 16 width n ++ rest)) =
      none := by
    rw [readEight?, hread]
    dsimp only
    rw [if_neg (by omega), if_neg Bool.false_ne_true, hdigits]
    simp [hc]
  rw [ofChars?, readOctets?_groupChars_append width head hcolon 2, height]

end Address

end GeoPolicy

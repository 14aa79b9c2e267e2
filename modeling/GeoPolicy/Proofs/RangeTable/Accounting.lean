import GeoPolicy.Log
import GeoPolicy.Proofs.RangeTable.History

/-!
# What becomes of the texts of a ruleset

Loading a ruleset goes through its texts in order. Each of them is a range that is new to the table,
a range that passes from the region that had it to another one, or no range at all. The log tells of
the second and the third, in the order of the texts, and sums up the third if there are any. So the
texts are accounted for: the size of the table, the ranges that were passed on and the texts that
were left out make up the number of texts.

## Main definitions

* `Ruleset.Fate` — what becomes of a text.
* `Ruleset.Fate.record?` — the log line that tells of it.
* `Ruleset.Entry.Meets` — the fate of a text after other texts.
* `Ruleset.Fates` — the fates of texts, each after the texts before it.
-/

namespace GeoPolicy

namespace Ruleset

/-! ## Fates -/

/-- What becomes of a text of a ruleset. -/
inductive Fate where
  /-- The text is a range that is new to the table. -/
  | tagged
  /-- The text is a range that another text had for a region. -/
  | retagged (before : String)
  /-- The text is no range. -/
  | skipped (cause : Error)
  deriving DecidableEq

namespace Fate

/-- The log line that tells what becomes of a text. A range that is new goes without saying. -/
def record? (e : Entry) : Fate → Option LogRecord
  | tagged => none
  | retagged before => some ⟨.debug, s!"{e.cidr} re-tagged from {before} to {e.rule.region}"⟩
  | skipped cause => some ⟨.warn, s!"skipping {e.rule.region} range: {cause.message}"⟩

/-- Whether a range passes from one region to another. -/
def isRetagged : Fate → Bool
  | retagged _ => true
  | _ => false

/-- Whether a text is left out. -/
def isSkipped : Fate → Bool
  | skipped _ => true
  | _ => false

end Fate

/-- The fate of a text after other texts. A range passes on from the region of the last text before
it that denotes a range of the same place. -/
inductive Entry.Meets (earlier : List Entry) (e : Entry) : Fate → Prop where
  | tagged {n : Network} (h : Network.parse e.cidr = .ok n)
    (hnew : ∀ d ∈ earlier, ∀ m, Network.parse d.cidr = .ok m → m.place ≠ n.place) :
    e.Meets earlier .tagged
  | retagged {n : Network} (h : Network.parse e.cidr = .ok n) {left right : List Entry} {d : Entry}
    (hsplit : earlier = left ++ d :: right) {m : Network} (hm : Network.parse d.cidr = .ok m)
    (hplace : m.place = n.place)
    (hlast : ∀ d' ∈ right, ∀ m', Network.parse d'.cidr = .ok m' → m'.place ≠ n.place) :
    e.Meets earlier (.retagged d.rule.region)
  | skipped {cause : Error} (h : Network.parse e.cidr = .error cause) :
    e.Meets earlier (.skipped cause)

/-- The fates of texts, each after the texts before it. -/
inductive Fates : List Entry → List Fate → Prop where
  | nil : Fates [] []
  | append_singleton {earlier : List Entry} {fates : List Fate} {e : Entry} {fate : Fate}
    (h : Fates earlier fates) (he : e.Meets earlier fate) :
    Fates (earlier ++ [e]) (fates ++ [fate])

/-- The log lines that tell the fates of texts. -/
def records (entries : List Entry) (fates : List Fate) : List LogRecord :=
  (entries.zip fates).filterMap fun (e, fate) => fate.record? e

theorem Fates.length_eq {entries : List Entry} {fates : List Fate} (h : Fates entries fates) :
    fates.length = entries.length := by
  induction h with
  | nil => rfl
  | append_singleton _ _ ih => simp [ih]

theorem records_append_singleton {earlier : List Entry} {fates : List Fate}
    (h : Fates earlier fates) (e : Entry) (fate : Fate) :
    records (earlier ++ [e]) (fates ++ [fate]) =
      records earlier fates ++ (fate.record? e).toList := by
  rw [records, List.zip_append h.length_eq.symm, List.filterMap_append, records]
  cases fate <;> rfl

/-! ## Which fate a text meets -/

/-- The value that a range has in a table after texts. -/
def valueAfter? (earlier : List Entry) (n : Network) : Option RangeTag :=
  RangeTable.lastValue? (earlier.filterMap Entry.call?) n.family n.key

theorem valueAfter?_eq_none_iff {earlier : List Entry} {n : Network} :
    valueAfter? earlier n = none ↔
      ∀ d ∈ earlier, ∀ m, Network.parse d.cidr = .ok m → m.place ≠ n.place := by
  rw [valueAfter?, RangeTable.lastValue?_eq_none_iff]
  simpa [Network.place] using @RangeTable.forall_mem_filterMap_call? earlier
    fun m => ¬(m.family = n.family ∧ m.key = n.key)

/-- A range has the tag of the last text that denotes a range of its place. -/
theorem valueAfter?_eq_some_iff {earlier : List Entry} {n : Network} {tag : RangeTag} :
    valueAfter? earlier n = some tag ↔ ∃ left d right m, earlier = left ++ d :: right ∧
      tag = d.rule.tag ∧ Network.parse d.cidr = .ok m ∧ m.place = n.place ∧
      ∀ d' ∈ right, ∀ m', Network.parse d'.cidr = .ok m' → m'.place ≠ n.place := by
  rw [valueAfter?, RangeTable.lastValue?_eq_some_iff]
  have hafter : ∀ right : List Entry, (∀ call ∈ right.filterMap Entry.call?,
      ¬(call.1.family = n.family ∧ call.1.key = n.key)) ↔
        ∀ d' ∈ right, ∀ m', Network.parse d'.cidr = .ok m' → m'.place ≠ n.place := by
    intro right
    simpa [Network.place] using @RangeTable.forall_mem_filterMap_call? right
      fun m => ¬(m.family = n.family ∧ m.key = n.key)
  constructor
  · rintro ⟨before, m, after, hsplit, hfamily, hkey, hlast⟩
    obtain ⟨left, d, right, rfl, hd, rfl, rfl⟩ :=
      RangeTable.filterMap_call?_eq_append_cons_iff.1 hsplit
    obtain ⟨hm, htag⟩ := RangeTable.call?_eq_some_iff.1 hd
    exact ⟨left, d, right, m, rfl, htag, hm, Prod.ext hfamily hkey, (hafter right).1 hlast⟩
  · rintro ⟨left, d, right, m, rfl, rfl, hm, hplace, hlast⟩
    obtain ⟨hfamily, hkey⟩ := Prod.mk.inj hplace
    have hd : d.call? = some (m, d.rule.tag) := RangeTable.call?_eq_some_iff.2 ⟨hm, rfl⟩
    have hsplit := RangeTable.filterMap_call?_eq_append_cons_iff.2
      ⟨left, d, right, rfl, hd, rfl, rfl⟩
    exact ⟨_, m, _, hsplit, hfamily, hkey, (hafter right).2 hlast⟩

/-- The fate that a text meets after other texts. -/
def Entry.fate (earlier : List Entry) (e : Entry) : Fate :=
  match Network.parse e.cidr with
  | .error cause => .skipped cause
  | .ok n =>
    match valueAfter? earlier n with
    | none => .tagged
    | some tag => .retagged tag.region

section Fate

variable {earlier : List Entry} {e : Entry}

theorem Entry.fate_of_error {cause : Error} (h : Network.parse e.cidr = .error cause) :
    e.fate earlier = .skipped cause := by
  rw [Entry.fate, h]

theorem Entry.fate_of_ok {n : Network} (h : Network.parse e.cidr = .ok n) :
    e.fate earlier = match valueAfter? earlier n with
      | none => .tagged
      | some tag => .retagged tag.region := by
  rw [Entry.fate, h]

/-- Every text meets one fate. -/
theorem Entry.meets_iff {fate : Fate} :
    e.Meets earlier fate ↔ fate = e.fate earlier := by
  constructor
  · intro h
    cases h with
    | tagged h hnew => rw [Entry.fate_of_ok h, valueAfter?_eq_none_iff.2 hnew]
    | retagged h hsplit hm hplace hlast =>
      rw [Entry.fate_of_ok h,
        valueAfter?_eq_some_iff.2 ⟨_, _, _, _, hsplit, rfl, hm, hplace, hlast⟩]
      rfl
    | skipped h => rw [Entry.fate_of_error h]
  · rintro rfl
    cases hparse : Network.parse e.cidr with
    | error cause =>
      rw [Entry.fate_of_error hparse]
      exact .skipped hparse
    | ok n =>
      rw [Entry.fate_of_ok hparse]
      cases hvalue : valueAfter? earlier n with
      | none => exact .tagged hparse (valueAfter?_eq_none_iff.1 hvalue)
      | some tag =>
        obtain ⟨left, d, right, m, hsplit, rfl, hm, hplace, hlast⟩ :=
          valueAfter?_eq_some_iff.1 hvalue
        exact .retagged hparse hsplit hm hplace hlast

theorem exists_fates (entries : List Entry) : ∃ fates, Fates entries fates := by
  induction entries using List.reverseRecOn with
  | nil => exact ⟨[], .nil⟩
  | append_singleton earlier e ih =>
    obtain ⟨fates, hfates⟩ := ih
    exact ⟨_, hfates.append_singleton (Entry.meets_iff.2 rfl)⟩

theorem fates_append_singleton_iff {fates : List Fate} :
    Fates (earlier ++ [e]) fates ↔
      ∃ before, fates = before ++ [e.fate earlier] ∧ Fates earlier before := by
  constructor
  · intro h
    generalize hentries : earlier ++ [e] = entries at h
    cases h with
    | nil => exact absurd hentries (by simp)
    | append_singleton hbefore he =>
      obtain ⟨rfl, hlast⟩ := List.append_inj' hentries rfl
      obtain rfl := List.singleton_inj.1 hlast
      exact ⟨_, by rw [Entry.meets_iff.1 he], hbefore⟩
  · rintro ⟨before, rfl, hbefore⟩
    exact hbefore.append_singleton (Entry.meets_iff.2 rfl)

end Fate

/-- The fates of texts are told by the texts. -/
theorem Fates.unique {entries : List Entry} {fates other : List Fate} (h : Fates entries fates)
    (hother : Fates entries other) : other = fates := by
  induction entries using List.reverseRecOn generalizing fates other with
  | nil => rw [List.eq_nil_of_length_eq_zero h.length_eq,
      List.eq_nil_of_length_eq_zero hother.length_eq]
  | append_singleton earlier e ih =>
    obtain ⟨before, rfl, hbefore⟩ := fates_append_singleton_iff.1 h
    obtain ⟨otherBefore, rfl, hotherBefore⟩ := fates_append_singleton_iff.1 hother
    rw [ih hbefore hotherBefore]

/-! ## Loading -/

/-- The event that tells what becomes of a text. -/
def Fate.event? (e : Entry) : Fate → Option LoadEvent
  | tagged => none
  | retagged before => some (.retagged e.cidr before e.rule.region)
  | skipped cause => some (.skipped e.rule.region cause)

theorem Fate.map_record_event? (e : Entry) (fate : Fate) :
    (fate.event? e).map LoadEvent.record = fate.record? e := by
  cases fate <;> rfl

/-- The table and the events after texts have been loaded. -/
def load (entries : List Entry) : RangeTable RangeTag × List LoadEvent :=
  entries.foldl (fun state e => RangeTable.loadRange e.rule state e.cidr) (.empty, [])

theorem load_append_singleton (earlier : List Entry) (e : Entry) :
    load (earlier ++ [e]) = RangeTable.loadRange e.rule (load earlier) e.cidr := by
  rw [load, List.foldl_append]
  rfl

theorem fst_load (entries : List Entry) :
    (load entries).1 = RangeTable.empty.insertAll (entries.filterMap Entry.call?) := by
  induction entries using List.reverseRecOn with
  | nil => rfl
  | append_singleton earlier e ih =>
    rw [load_append_singleton, RangeTable.loadRange_fst, ih, ← RangeTable.insertAll_append,
      List.filterMap_append, Network.parseAll, List.map_filterMap]
    rfl

theorem get?_fst_load (entries : List Entry) (n : Network) :
    (load entries).1.get? n = valueAfter? entries n := by
  rw [fst_load]
  exact RangeTable.get?_tree_insertAll _ _ _

/-- Loading one more text tells of its fate. -/
theorem snd_load_append_singleton (earlier : List Entry) (e : Entry) :
    (load (earlier ++ [e])).2 = (load earlier).2 ++ ((e.fate earlier).event? e).toList := by
  rw [load_append_singleton, RangeTable.loadRange]
  cases hparse : Network.parse e.cidr with
  | error cause =>
    rw [RangeTable.insertText_of_error hparse, Entry.fate_of_error hparse]
    rfl
  | ok n =>
    rw [RangeTable.insertText_of_ok hparse, Entry.fate_of_ok hparse, get?_fst_load]
    cases valueAfter? earlier n with
    | none => simp [Fate.event?]
    | some tag => rfl

/-- Loading one more text adds to the table exactly if its range is new. -/
theorem size_load_append_singleton (earlier : List Entry) (e : Entry) :
    (load (earlier ++ [e])).1.size =
      (load earlier).1.size + if e.fate earlier = .tagged then 1 else 0 := by
  rw [load_append_singleton, RangeTable.loadRange]
  cases hparse : Network.parse e.cidr with
  | error cause =>
    rw [RangeTable.insertText_of_error hparse, Entry.fate_of_error hparse]
    rfl
  | ok n =>
    rw [RangeTable.insertText_of_ok hparse, Entry.fate_of_ok hparse, ← get?_fst_load]
    cases hvalue : (load earlier).1.get? n <;> simp [RangeTable.size_insert, hvalue]

/-- What is told while texts are loaded, and how many of them meet which fate. -/
theorem Fates.load {entries : List Entry} {fates : List Fate} (h : Fates entries fates) :
    (load entries).2.map LoadEvent.record = records entries fates ∧
      (load entries).2.countP LoadEvent.isSkip = fates.countP Fate.isSkipped ∧
      (load entries).1.size + fates.countP Fate.isRetagged + fates.countP Fate.isSkipped =
        entries.length := by
  induction entries using List.reverseRecOn generalizing fates with
  | nil =>
    rw [List.eq_nil_of_length_eq_zero h.length_eq]
    exact ⟨rfl, rfl, rfl⟩
  | append_singleton earlier e ih =>
    obtain ⟨before, rfl, hbefore⟩ := fates_append_singleton_iff.1 h
    obtain ⟨hrecords, hskips, hsizes⟩ := ih hbefore
    rw [snd_load_append_singleton, size_load_append_singleton]
    refine ⟨?_, ?_, ?_⟩
    · rw [List.map_append, hrecords, records_append_singleton hbefore, ← Fate.map_record_event?]
      cases (e.fate earlier).event? e <;> rfl
    · rw [List.countP_append, List.countP_append, hskips]
      cases e.fate earlier <;> rfl
    · rw [List.countP_append, List.countP_append, List.length_append, ← hsizes]
      cases e.fate earlier <;> simp [Fate.isRetagged, Fate.isSkipped] <;> omega

theorem length_entries (r : Ruleset) : r.entries.length = r.rangeCount := by
  rw [entries, rangeCount, List.length_flatMap, List.length_flatMap]
  simp

/-- A ruleset is loaded text by text; at the end the log sums up what was left out. -/
theorem ofRuleset_eq (r : Ruleset) :
    RangeTable.ofRuleset r = ((load r.entries).1,
      if (load r.entries).2.countP LoadEvent.isSkip = 0 then (load r.entries).2
      else (load r.entries).2 ++
        [.incomplete ((load r.entries).2.countP LoadEvent.isSkip) r.rangeCount]) := by
  have hload : load r.entries = r.rules.foldl
      (fun state rule => rule.cidrs.foldl (RangeTable.loadRange rule) state) (.empty, []) := by
    rw [load, entries, List.foldl_flatMap]
    simp only [List.foldl_map]
  rw [hload]
  rfl

/-- Loading accounts for every text. Each text of a ruleset has one fate: it is a range that is new,
a range that passes on from the region of the last text before it that denotes the same family and
leading bits, or no range. The log tells of the second and the third, text by text, and at the end
how many of all texts were left out if any were. The size of the table, the ranges that were passed
on and the texts that were left out make up the number of texts. -/
theorem accounts_of_ofRuleset (r : Ruleset) :
    ∃ fates, Fates r.entries fates ∧ (∀ other, Fates r.entries other → other = fates) ∧
      (RangeTable.ofRuleset r).2.map LoadEvent.record = records r.entries fates ++
        (if fates.countP Fate.isSkipped = 0 then []
        else [⟨.warn,
          s!"{fates.countP Fate.isSkipped} of {r.rangeCount} ranges not loaded"⟩]) ∧
      (RangeTable.ofRuleset r).1.size + fates.countP Fate.isRetagged +
        fates.countP Fate.isSkipped = r.rangeCount := by
  obtain ⟨fates, hfates⟩ := exists_fates r.entries
  obtain ⟨hrecords, hskips, hsizes⟩ := hfates.load
  refine ⟨fates, hfates, fun other => hfates.unique, ?_, ?_⟩
  · rw [ofRuleset_eq, hskips, ← hrecords]
    dsimp only
    split
    · rw [List.append_nil]
    · rw [List.map_append]
      rfl
  · rw [ofRuleset_eq, ← length_entries, ← hsizes]

end Ruleset

end GeoPolicy

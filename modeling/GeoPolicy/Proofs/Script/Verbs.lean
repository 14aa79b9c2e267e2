import GeoPolicy.Proofs.Script.Reading

/-!
# Reading rules

The rules of a script are read back from its text alone, each with its backend and its verb. As in
the reading of ranges, a rule is known by its beginning.

## Main definitions

* `Script.readVerb?`, `Script.readVerbs` — the verb of a line that is a rule, and all of them.
* `Script.Line.verb?` — the same, told from the line itself.
-/

namespace GeoPolicy

namespace Script

open Text

/-! ## Reading rules -/

/-- The beginnings of rules, with the backend that they are for. -/
def ruleStarts : List (String × Backend) :=
  [("iptables -A GEOGUARD ", .iptables),
    ("ip6tables -A GEOGUARD ", .iptables),
    ("nft add rule inet geoguard input ", .nftables)]

/-- The backend and the verb of a line that is a rule. The verb is the last word. -/
def readVerb? (line : List Char) : Option (Backend × String) :=
  (readStart? ruleStarts line).map fun (backend, _) => (backend, String.ofList (lastWord line))

/-- The backends and verbs of the rules of a script, in order. -/
def readVerbs (script : String) : List (Backend × String) :=
  (lines script.toList).filterMap readVerb?

/-! ## Verbs of written lines -/

/-- The backend and the verb of a rule. -/
def Line.verb? : Line → Option (Backend × String)
  | matchSet _ verb | matchRange _ _ verb => some (.iptables, verb)
  | addNftRule _ verb => some (.nftables, verb)
  | _ => none

/-- The characters of the beginnings of rules. -/
def ruleStartChars : List (List Char) :=
  [spelled "iptables -A GEOGUARD ", spelled "ip6tables -A GEOGUARD ",
    spelled "nft add rule inet geoguard input "]

theorem map_ruleStarts : ruleStarts.map (·.1.toList) = ruleStartChars := by
  simp only [ruleStarts, ruleStartChars, List.map_cons, List.map_nil, spelled_eq]

theorem readVerb?_of_misses {line : List Char}
    (h : ruleStartChars.all (!·.isPrefixOf line) = true) : readVerb? line = none := by
  rw [readVerb?, readStart?_of_misses (misses_of_chars map_ruleStarts h), Option.map_none]

/-- A rule is found by its beginning, if no earlier one is there as well. -/
theorem readVerb?_of_start (n : Nat) {name : String} {backend : Backend}
    {begin start : List Char} {verb : String} (hname : ruleStarts[n]? = some (name, backend))
    (hbegin : ruleStartChars[n]? = some begin)
    (hline : begin.isPrefixOf (start ++ verb.toList) = true)
    (hbefore : (ruleStartChars.take n).all (!·.isPrefixOf (start ++ verb.toList)) = true)
    (hverb : IsWord verb.toList) (hstart : start.getLast?.all isBlank = true) :
    readVerb? (start ++ verb.toList) = some (backend, verb) := by
  obtain ⟨rest, hrest⟩ := List.isPrefixOf_iff_prefix.1 hline
  rw [readVerb?, readStart?_of_chars map_ruleStarts n hname hbegin hrest.symm hbefore,
    lastWord_append_word hverb hstart]
  simp

/-- The reader finds the verb of each rule, and no verb in another line. -/
theorem readVerb?_text (l : Line) (h : l.WellFormed) : readVerb? l.text.toList = l.verb? := by
  rw [Line.toList_text]
  cases l with
  | matchSet family verb =>
    cases family with
    | v4 => exact readVerb?_of_start 0 rfl rfl rfl rfl h rfl
    | v6 => exact readVerb?_of_start 1 rfl rfl rfl rfl h rfl
  | matchRange family cidr verb =>
    have hblank (s : List Char) : (s ++ spelled " -j ").getLast?.all isBlank = true := by
      rw [List.getLast?_append_of_ne_nil s (by decide)]
      rfl
    cases family with
    | v4 => exact readVerb?_of_start 0 rfl rfl rfl rfl h.2 (hblank _)
    | v6 => exact readVerb?_of_start 1 rfl rfl rfl rfl h.2 (hblank _)
  | addNftRule family verb =>
    cases family
    all_goals exact readVerb?_of_start 2 rfl rfl rfl rfl h rfl
  | createSet family | flushSet family | createChain family | flushChain family | linkChain family
  | addNftSet family | addToSet family | addElements family =>
    cases family
    all_goals exact readVerb?_of_misses rfl
  | interpreter | blank | comment | heading | requireCommand | warnWithoutIPv6 | requireIpset
  | addTable | flushTable | addInputChain | report => exact readVerb?_of_misses rfl

/-! ## Whole texts -/

theorem filterMap_readVerb?_text (ls : List Line) (h : ∀ l ∈ ls, l.WellFormed) :
    (ls.map (·.text.toList)).filterMap readVerb? = ls.filterMap Line.verb? := by
  rw [List.filterMap_map]
  exact List.filterMap_congr fun l hl => readVerb?_text l (h l hl)

theorem readVerbs_text (ls : List Line) (h : ∀ l ∈ ls, l.WellFormed) :
    readVerbs (text ls) = ls.filterMap Line.verb? := by
  rw [readVerbs, lines_text ls h, filterMap_readVerb?_text ls h]

end Script

end GeoPolicy

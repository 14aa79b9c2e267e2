import GeoPolicy.Proofs.Yaml.FlatFile
import GeoPolicy.Yaml.Node

/-!
# The tree of a flat file

A flat file is read as a mapping whose entries are its members in order: a plain scalar with each
word as it is written, and a sequence of plain scalars for words between brackets. Nothing in it
has a tag or a label.

## Main definitions

* `Yaml.Node.IsWord`, `Yaml.Node.Holds`, `Yaml.Node.HoldsAll` — the nodes of words, of values and
  of flat files.

## Main statements

* `Yaml.Document.ofText_flat` — the document of a flat file.
-/

namespace GeoPolicy

namespace Yaml

/-! ## Nodes -/

namespace Node

/-- A plain scalar without a tag, which no alias stands for. -/
def IsWord (n : Node) (w : String) : Prop :=
  ∃ place, n = scalar { place } .plain w

/-- The nodes of a value. -/
inductive Holds : Node → FlatValue → Prop
  | word {n w} (h : IsWord n w) : Holds n (.word w)
  | words {items ws} (place : Place) (h : List.Forall₂ IsWord items ws) :
      Holds (sequence { place } items) (.words ws)

/-- The two nodes of a member. -/
def HoldsMember (entry : Node × Node) (m : FlatMember) : Prop :=
  entry.1.IsWord m.name ∧ entry.2.Holds m.value

/-- The root of a flat file. -/
inductive HoldsAll : Node → List FlatMember → Prop
  | empty : HoldsAll empty []
  | mapping {entries ms} (place : Place) (h : List.Forall₂ HoldsMember entries ms) :
      HoldsAll (mapping { place } entries) ms

end Node

/-! ## Reading -/

namespace NodeReader

section Steps

variable (handles : TagHandles) (fuel : Nat) (isBlock isIndentless : Bool) (place place' : Place)
  (w : String) (rest : List Lexeme) (names : List (String × Nat))

theorem run_node_word :
    (node handles (fuel + 2) isBlock isIndentless).run ⟨⟨.scalar .plain w, place⟩ :: rest, names⟩ =
      (.scalar { place } .plain w, ⟨rest, names⟩) :=
  rfl

theorem run_node_brackets :
    (node handles (fuel + 2) isBlock isIndentless).run
        ⟨⟨.flowSequenceStart, place⟩ :: rest, names⟩ =
      ((flowItems handles fuel true).run ⟨rest, names⟩).map (.sequence { place }) id :=
  rfl

theorem run_node_block :
    (node handles (fuel + 2) true false).run ⟨⟨.blockMappingStart, place⟩ :: rest, names⟩ =
      ((blockEntries handles fuel).run ⟨rest, names⟩).map (.mapping { place }) id :=
  rfl

theorem run_flowItems_end (isFirst : Bool) :
    (flowItems handles (fuel + 1) isFirst).run ⟨⟨.flowSequenceEnd, place⟩ :: rest, names⟩ =
      ([], ⟨rest, names⟩) :=
  rfl

theorem run_flowItems_first :
    (flowItems handles (fuel + 3) true).run ⟨⟨.scalar .plain w, place⟩ :: rest, names⟩ =
      ((flowItems handles (fuel + 2) false).run ⟨rest, names⟩).map (.scalar { place } .plain w :: ·)
        id :=
  rfl

theorem run_flowItems_next :
    (flowItems handles (fuel + 3) false).run
        ⟨⟨.flowEntry, place'⟩ :: ⟨.scalar .plain w, place⟩ :: rest, names⟩ =
      ((flowItems handles (fuel + 2) false).run ⟨rest, names⟩).map (.scalar { place } .plain w :: ·)
        id :=
  rfl

theorem run_blockEntries_end :
    (blockEntries handles (fuel + 1)).run ⟨⟨.blockEnd, place⟩ :: rest, names⟩ =
      ([], ⟨rest, names⟩) :=
  rfl

theorem run_blockEntries_next (placeOfValue : Place)
    (hrest : (rest.head?.map (·.token)).any blockStops.contains = false) :
    (blockEntries handles (fuel + 3)).run
        ⟨⟨.key, place⟩ :: ⟨.scalar .plain w, place'⟩ :: ⟨.value, placeOfValue⟩ :: rest, names⟩ =
      let (value, c) := (node handles (fuel + 2) true true).run ⟨rest, names⟩
      ((blockEntries handles (fuel + 2)).run c).map
        ((.scalar { place := place' } .plain w, value) :: ·) id := by
  have hvalue : (unlessAt blockStops (node handles (fuel + 2) true true)).run ⟨rest, names⟩ =
      (node handles (fuel + 2) true true).run ⟨rest, names⟩ := by
    change (if (rest.head?.map (·.token)).any blockStops.contains = true then pure Node.empty
      else node handles (fuel + 2) true true : NodeReader Node).run ⟨rest, names⟩ = _
    rw [hrest, if_neg Bool.false_ne_true]
  change (do
    let value ← unlessAt blockStops (node handles (fuel + 2) true true)
    return (Node.scalar { place := place' } .plain w, value) ::
      (← blockEntries handles (fuel + 2)) : NodeReader _).run ⟨rest, names⟩ = _
  rw [StateT.run_bind, hvalue]
  rfl

end Steps

section Runs

variable (handles : TagHandles) {fuel : Nat} {ts : List Lexeme} (rest : List Lexeme)
  (names : List (String × Nat))

theorem exists_of_map_token {t : Token} {later : List Token} (h : ts.map (·.token) = t :: later) :
    ∃ place ts', ts = ⟨t, place⟩ :: ts' ∧ ts'.map (·.token) = later := by
  obtain ⟨⟨_, place⟩, ts', rfl, rfl, hlater⟩ := List.map_eq_cons_iff.1 h
  exact ⟨place, ts', rfl, hlater⟩

/-- The items after the first one. Each takes two tokens and a step. -/
theorem run_items {ws : List String} (hts : ts.map (·.token) = itemTokens ws ++ [.flowSequenceEnd])
    (hfuel : ts.length + 1 ≤ fuel) :
    ∃ items, List.Forall₂ Node.IsWord items ws ∧
      (flowItems handles fuel false).run ⟨ts ++ rest, names⟩ = (items, ⟨rest, names⟩) := by
  obtain ⟨fuel, rfl⟩ := Nat.exists_eq_add_of_le' hfuel
  clear hfuel
  induction ws generalizing ts fuel with
  | nil =>
    obtain ⟨place, ts₁, rfl, hts₁⟩ := exists_of_map_token hts
    obtain rfl := List.map_eq_nil_iff.1 hts₁
    exact ⟨[], .nil, run_flowItems_end handles (fuel + 1) place rest names false⟩
  | cons w ws ih =>
    obtain ⟨place', ts₁, rfl, hts₁⟩ := exists_of_map_token hts
    obtain ⟨place, ts₂, rfl, hts₂⟩ := exists_of_map_token hts₁
    obtain ⟨items, hitems, hrun⟩ := ih hts₂ (fuel + 1)
    refine ⟨.scalar { place } .plain w :: items, .cons ⟨place, rfl⟩ hitems, ?_⟩
    have hstep := run_flowItems_next handles (fuel + ts₂.length) place place' w (ts₂ ++ rest) names
    rw [show fuel + 1 + (ts₂.length + 1) = fuel + ts₂.length + 2 by omega] at hrun
    rw [hrun] at hstep
    exact hstep

/-- A value. Inside of it each step takes a token, and two steps lead to its content. -/
theorem run_value {v : FlatValue} (hts : ts.map (·.token) = v.tokens)
    (hfuel : ts.length + 3 ≤ fuel) :
    ∃ n, n.Holds v ∧
      (node handles fuel true true).run ⟨ts ++ rest, names⟩ = (n, ⟨rest, names⟩) := by
  obtain ⟨fuel, rfl⟩ := Nat.exists_eq_add_of_le' hfuel
  cases v with
  | word w =>
    obtain ⟨place, ts₁, rfl, hts₁⟩ := exists_of_map_token hts
    obtain rfl := List.map_eq_nil_iff.1 hts₁
    exact ⟨_, .word ⟨place, rfl⟩, run_node_word handles (fuel + 2) true true place w rest names⟩
  | words ws =>
    obtain ⟨place, ts₁, rfl, hts₁⟩ := exists_of_map_token hts
    have hnode :=
      run_node_brackets handles (fuel + ts₁.length + 2) true true place (ts₁ ++ rest) names
    cases ws with
    | nil =>
      obtain ⟨place', ts₂, rfl, hts₂⟩ := exists_of_map_token hts₁
      obtain rfl := List.map_eq_nil_iff.1 hts₂
      exact ⟨_, .words place .nil, hnode⟩
    | cons w ws =>
      rw [intersperse_flowEntry_cons] at hts₁
      obtain ⟨place', ts₂, rfl, hts₂⟩ := exists_of_map_token hts₁
      obtain ⟨items, hitems, hrun⟩ := run_items handles rest names hts₂
        (show _ ≤ fuel + ts₂.length + 2 by omega)
      have hfirst :=
        run_flowItems_first handles (fuel + ts₂.length) place' w (ts₂ ++ rest) names
      rw [hrun] at hfirst
      refine ⟨_, .words place (.cons ⟨place', rfl⟩ hitems), hnode.trans ?_⟩
      exact congrArg (Prod.map (Node.sequence { place }) id) hfirst

/-- The entries of a mapping. -/
theorem run_entries {ms : List FlatMember}
    (hts : ts.map (·.token) = ms.flatMap FlatMember.tokens ++ [.blockEnd])
    (hfuel : ts.length ≤ fuel) :
    ∃ entries, List.Forall₂ Node.HoldsMember entries ms ∧
      (blockEntries handles fuel).run ⟨ts ++ rest, names⟩ = (entries, ⟨rest, names⟩) := by
  obtain ⟨fuel, rfl⟩ := Nat.exists_eq_add_of_le' hfuel
  clear hfuel
  induction ms generalizing ts fuel with
  | nil =>
    obtain ⟨place, ts₁, rfl, hts₁⟩ := exists_of_map_token hts
    obtain rfl := List.map_eq_nil_iff.1 hts₁
    exact ⟨[], .nil, run_blockEntries_end handles fuel place rest names⟩
  | cons m ms ih =>
    rw [List.flatMap_cons, FlatMember.tokens, List.append_assoc] at hts
    obtain ⟨place, ts₁, rfl, hts₁⟩ := exists_of_map_token hts
    obtain ⟨place', ts₂, rfl, hts₂⟩ := exists_of_map_token hts₁
    obtain ⟨place'', ts₃, rfl, hts₃⟩ := exists_of_map_token hts₂
    obtain ⟨value, ts₄, rfl, hvalue, hts₄⟩ := List.map_eq_append_iff.1 hts₃
    -- Something is left behind the value, the end of the mapping at least: that is a step to spare.
    have hlast : 0 < ts₄.length := by
      have hlength := congrArg List.length hts₄
      rw [List.length_map, List.length_append, List.length_singleton] at hlength
      omega
    have hfuel : value.length + 3 ≤ fuel + (value ++ ts₄).length + 2 := by
      rw [List.length_append]
      omega
    obtain ⟨n, hn, hnode⟩ := run_value handles (ts₄ ++ rest) names hvalue hfuel
    obtain ⟨entries, hentries, hrun⟩ := ih hts₄ (fuel + value.length + 2)
    refine ⟨(.scalar { place := place' } .plain m.name, n) :: entries,
      .cons ⟨⟨place', rfl⟩, hn⟩ hentries, ?_⟩
    -- What a value begins with ends no entry, so the value is not left out.
    have hhead :
        ((value ++ (ts₄ ++ rest)).head?.map (·.token)).any blockStops.contains = false := by
      rw [← List.head?_map, List.map_append, hvalue]
      cases m.value <;> rfl
    have hstep := run_blockEntries_next handles (fuel + (value ++ ts₄).length) place place' m.name
      (value ++ (ts₄ ++ rest)) names place'' hhead
    have hlength : fuel + value.length + 2 + ts₄.length = fuel + (value ++ ts₄).length + 2 := by
      simp
      omega
    rw [hlength] at hrun
    simp only [hnode, hrun] at hstep
    rw [List.cons_append, List.cons_append, List.cons_append, List.append_assoc]
    exact hstep

end Runs

end NodeReader

/-! ## Documents -/

/-- The document of a flat file keeps the rules. -/
theorem Document.ofText_flat {s : String} {ms : List FlatMember} (hms : ∀ m ∈ ms, m.IsPlain)
    (hs : s.toList = ms.flatMap FlatMember.chars) :
    ∃ root, root.HoldsAll ms ∧ Document.ofText s = { root, isWhole := true } := by
  have htokens := token_lexemes hms hs
  rw [fileTokens] at htokens
  split at htokens
  · next hempty =>
    obtain ⟨place, ts, hts, hend⟩ := NodeReader.exists_of_map_token htokens
    obtain rfl := List.map_eq_nil_iff.1 hend
    refine ⟨Node.empty, hempty ▸ .empty, ?_⟩
    rw [Document.ofText, hts]
    rfl
  · rw [List.cons_append] at htokens
    obtain ⟨place, ts, hts, hlater⟩ := NodeReader.exists_of_map_token htokens
    rw [List.append_cons] at hlater
    obtain ⟨body, tail, rfl, hbody, htail⟩ := List.map_eq_append_iff.1 hlater
    obtain ⟨placeOfEnd, ts', rfl, hend⟩ := NodeReader.exists_of_map_token htail
    obtain rfl := List.map_eq_nil_iff.1 hend
    let last : Lexeme := ⟨.streamEnd, placeOfEnd⟩
    have hfuel : body.length ≤ 3 * (body ++ [last]).length + 4 := by
      rw [List.length_append]
      omega
    obtain ⟨entries, hentries, hrun⟩ :=
      NodeReader.run_entries defaultHandles [last] [] hbody hfuel
    have hroot : (NodeReader.readNode defaultHandles).run ⟨lexemes s, []⟩ =
        (.mapping { place } entries, ⟨[last], []⟩) := by
      rw [hts]
      refine (NodeReader.run_node_block defaultHandles (3 * (body ++ [last]).length + 4) place
        (body ++ [last]) []).trans ?_
      rw [hrun]
      rfl
    have hopen : openDocument? (lexemes s) =
        some (NodeReader.readNode defaultHandles, lexemes s) := by
      rw [hts]
      rfl
    refine ⟨.mapping { place } entries, .mapping place hentries, ?_⟩
    simp only [Document.ofText, hopen, hroot]
    rfl

end Yaml

end GeoPolicy

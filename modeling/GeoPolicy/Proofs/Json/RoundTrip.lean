import GeoPolicy.Json.Reader
import GeoPolicy.Proofs.Json.Token

/-!
# Reading written values

A value that is written on one line or over several lines is read back. Its text has the tokens of
the value, and the tokens lead the reader from wherever a value may start to where it has been read.

## Main definitions

* `Json.IsPlain` — values with natural numbers, and with texts in every open place.
* `Json.tokens` — the tokens of a value.
-/

namespace GeoPolicy

namespace Json

/-- A value whose numbers are natural numbers and whose texts have no half of a surrogate pair. -/
inductive IsPlain : Json → Prop where
  | null : IsPlain null
  | bool (b : Bool) : IsPlain (bool b)
  | ofNat (n : Nat) : IsPlain (ofNat n)
  | ofString (s : String) : IsPlain (ofString s)
  | array {elements : List Json} (h : ∀ v ∈ elements, IsPlain v) : IsPlain (array elements)
  | ofMembers {members : List (String × Json)} (h : ∀ m ∈ members, IsPlain m.2) :
    IsPlain (ofMembers members)

theorem isPlain_ofStrings (l : List String) : (ofStrings l).IsPlain := by
  refine .array (List.forall_mem_map.2 ?_)
  exact fun s _ => .ofString s

/-! ## Tokens of a value -/

mutual

/-- The tokens of a value. -/
def tokens : Json → List Token
  | null => [.null]
  | bool b => [.bool b]
  | number literal => [.number literal]
  | text content => [.quoted content]
  | array elements => [.openArray] ++ elementTokens elements ++ [.closeArray]
  | object members => [.openObject] ++ memberTokens members ++ [.closeObject]

/-- The tokens of the elements of an array, with commas between them. -/
def elementTokens : List Json → List Token
  | [] => []
  | [v] => tokens v
  | v :: w :: rest => tokens v ++ [.comma] ++ elementTokens (w :: rest)

/-- The tokens of the members of an object, with commas between them. -/
def memberTokens : List (Quoted × Json) → List Token
  | [] => []
  | [(key, v)] => [.quoted key, .colon] ++ tokens v
  | (key, v) :: m :: rest =>
    [.quoted key, .colon] ++ tokens v ++ [.comma] ++ memberTokens (m :: rest)

end

/-! ## From text to tokens -/

/-- A text has these tokens, whatever stands after it, if only that does not go on with a
number. -/
def Tokenizes (chars : List Char) (ts : List Token) : Prop :=
  ∀ rest more, EndsNumber rest → tokens? rest = some more →
    tokens? (chars ++ rest) = some (ts ++ more)

theorem Token.IsPlain.tokenizes {t : Token} (h : t.IsPlain) : Tokenizes t.chars [t] :=
  fun _ _ hrest hmore => tokens?_chars_append h (fun _ => hrest) hmore

theorem tokenizes_closeArray : Tokenizes [']'] [.closeArray] :=
  Token.IsPlain.tokenizes (t := .closeArray) trivial

theorem tokenizes_closeObject : Tokenizes ['\x7d'] [.closeObject] :=
  Token.IsPlain.tokenizes (t := .closeObject) trivial

/-- A token that is not a number stands before any text. -/
theorem Tokenizes.mark_append {t : Token} (ht : t.IsPlain) (hmark : t.isNumber = false)
    {chars : List Char} {ts : List Token} (h : Tokenizes chars ts) :
    Tokenizes (t.chars ++ chars) (t :: ts) := by
  intro rest more hrest hmore
  rw [List.append_assoc]
  exact tokens?_mark_append ht hmark (h rest more hrest hmore)

/-- A text that does not go on with a number stands after any text. -/
theorem Tokenizes.append {chars after : List Char} {ts us : List Token} (h : Tokenizes chars ts)
    (hafter : Tokenizes after us) (hends : ∀ rest, EndsNumber (after ++ rest)) :
    Tokenizes (chars ++ after) (ts ++ us) := by
  intro rest more hrest hmore
  rw [List.append_assoc, List.append_assoc]
  exact h _ _ (hends rest) (hafter rest more hrest hmore)

/-- Texts with commas between them. -/
theorem Tokenizes.comma {chars after : List Char} {ts us : List Token} (h : Tokenizes chars ts)
    (hafter : Tokenizes after us) : Tokenizes (chars ++ [','] ++ after) (ts ++ [.comma] ++ us) := by
  rw [List.append_assoc, List.append_assoc]
  exact h.append (hafter.mark_append (t := .comma) trivial rfl) fun _ => .cons rfl

/-- Blanks before a text do not matter. -/
theorem Tokenizes.indent {chars blanks : List Char} {ts : List Token} (h : Tokenizes chars ts)
    (hblanks : ∀ c ∈ blanks, isSpace c = true) : Tokenizes (blanks ++ chars) ts := by
  intro rest more hrest hmore
  rw [List.append_assoc]
  exact tokens?_space_append hblanks (h rest more hrest hmore)

theorem tokenizes_compactElements {elements : List Json}
    (h : ∀ v ∈ elements, Tokenizes (compactChars v) v.tokens) :
    Tokenizes (compactElements elements) (elementTokens elements) := by
  induction elements with
  | nil => exact fun rest more _ hmore => hmore
  | cons v elements ih =>
    have hv := h v List.mem_cons_self
    cases elements with
    | nil => exact hv
    | cons w elements => exact hv.comma (ih fun u hu => h u (List.mem_cons_of_mem v hu))

theorem tokenizes_compactMembers {members : List (String × Json)}
    (h : ∀ m ∈ members, Tokenizes (compactChars m.2) m.2.tokens) :
    Tokenizes (compactMembers (members.map fun m => (some m.1, m.2)))
      (memberTokens (members.map fun m => (some m.1, m.2))) := by
  -- A member is its key, a colon and its value.
  have hmember : ∀ m ∈ members, Tokenizes (writeQuoted (some m.1) ++ [':'] ++ compactChars m.2)
      ([.quoted (some m.1), .colon] ++ m.2.tokens) := by
    intro m hm
    have hcolon := (h m hm).mark_append (t := .colon) trivial rfl
    simpa [Token.chars] using hcolon.mark_append (t := .quoted (some m.1)) rfl rfl
  clear h
  induction members with
  | nil => exact fun rest more _ hmore => hmore
  | cons m members ih =>
    have hm := hmember m List.mem_cons_self
    cases members with
    | nil => exact hm
    | cons n members => exact hm.comma (ih fun u hu => hmember u (List.mem_cons_of_mem m hu))

/-- The text of a value has the tokens of the value. -/
theorem IsPlain.tokenizes {v : Json} (h : v.IsPlain) : Tokenizes (compactChars v) v.tokens := by
  induction h with
  | null => exact Token.IsPlain.tokenizes (t := .null) trivial
  | bool b =>
    cases b with
    | false => exact Token.IsPlain.tokenizes (t := .bool false) trivial
    | true => exact Token.IsPlain.tokenizes (t := .bool true) trivial
  | ofNat n => exact Token.IsPlain.tokenizes (t := .number _) ⟨n, rfl⟩
  | ofString s => exact Token.IsPlain.tokenizes (t := .quoted _) rfl
  | array h ih =>
    have helements := (tokenizes_compactElements ih).append tokenizes_closeArray fun _ => .cons rfl
    simpa [compactChars, tokens, Token.chars] using
      helements.mark_append (t := .openArray) trivial rfl
  | ofMembers h ih =>
    have hmembers := (tokenizes_compactMembers ih).append tokenizes_closeObject fun _ => .cons rfl
    simpa [Json.ofMembers, compactChars, tokens, Token.chars] using
      hmembers.mark_append (t := .openObject) trivial rfl

theorem tokens?_compactChars {v : Json} (h : v.IsPlain) :
    tokens? (compactChars v) = some v.tokens := by
  simpa using h.tokenizes [] [] .nil rfl

/-! ### Several lines -/

theorem isSpace_of_mem_newLine (level : Nat) : ∀ c ∈ newLine level, isSpace c = true := by
  refine List.forall_mem_cons.2 ⟨rfl, fun c hc => ?_⟩
  rw [List.eq_of_mem_replicate hc]
  rfl

/-- A new line ends a number. -/
theorem endsNumber_newLine_append (level : Nat) (rest : List Char) :
    EndsNumber (newLine level ++ rest) :=
  .cons rfl

theorem tokenizes_prettyElements {level : Nat} {elements : List Json}
    (h : ∀ v ∈ elements, Tokenizes (prettyChars level v) v.tokens) :
    Tokenizes (prettyElements level elements) (elementTokens elements) := by
  induction elements with
  | nil => exact fun rest more _ hmore => hmore
  | cons v elements ih =>
    have hv := (h v List.mem_cons_self).indent (isSpace_of_mem_newLine level)
    cases elements with
    | nil => exact hv
    | cons w elements => exact hv.comma (ih fun u hu => h u (List.mem_cons_of_mem v hu))

theorem tokenizes_prettyMembers {level : Nat} {members : List (String × Json)}
    (h : ∀ m ∈ members, Tokenizes (prettyChars level m.2) m.2.tokens) :
    Tokenizes (prettyMembers level (members.map fun m => (some m.1, m.2)))
      (memberTokens (members.map fun m => (some m.1, m.2))) := by
  have hblank : ∀ c ∈ [' '], isSpace c = true := List.forall_mem_singleton.2 rfl
  -- A member stands on a line of its own, with a blank before its value.
  have hmember : ∀ m ∈ members, Tokenizes
      (newLine level ++ writeQuoted (some m.1) ++ [':', ' '] ++ prettyChars level m.2)
      ([.quoted (some m.1), .colon] ++ m.2.tokens) := by
    intro m hm
    have hcolon := ((h m hm).indent hblank).mark_append (t := .colon) trivial rfl
    have hkey := hcolon.mark_append (t := .quoted (some m.1)) rfl rfl
    simpa [Token.chars] using hkey.indent (isSpace_of_mem_newLine level)
  clear h
  induction members with
  | nil => exact fun rest more _ hmore => hmore
  | cons m members ih =>
    have hm := hmember m List.mem_cons_self
    cases members with
    | nil => exact hm
    | cons n members => exact hm.comma (ih fun u hu => hmember u (List.mem_cons_of_mem m hu))

/-- The text of a value over several lines has the same tokens. -/
theorem IsPlain.tokenizes_pretty {v : Json} (h : v.IsPlain) (level : Nat) :
    Tokenizes (prettyChars level v) v.tokens := by
  induction h generalizing level with
  | null => exact Token.IsPlain.tokenizes (t := .null) trivial
  | bool b =>
    cases b with
    | false => exact Token.IsPlain.tokenizes (t := .bool false) trivial
    | true => exact Token.IsPlain.tokenizes (t := .bool true) trivial
  | ofNat n => exact Token.IsPlain.tokenizes (t := .number _) ⟨n, rfl⟩
  | ofString s => exact Token.IsPlain.tokenizes (t := .quoted _) rfl
  | @array elements h ih =>
    cases elements with
    | nil => exact tokenizes_closeArray.mark_append (t := .openArray) trivial rfl
    | cons v elements =>
      have hclose := tokenizes_closeArray.indent (isSpace_of_mem_newLine level)
      have helements := (tokenizes_prettyElements fun w hw => ih w hw (level + 1)).append hclose
        fun _ => by simpa using endsNumber_newLine_append level _
      simpa [prettyChars, tokens, Token.chars] using
        helements.mark_append (t := .openArray) trivial rfl
  | @ofMembers members h ih =>
    cases members with
    | nil => exact tokenizes_closeObject.mark_append (t := .openObject) trivial rfl
    | cons m members =>
      have hclose := tokenizes_closeObject.indent (isSpace_of_mem_newLine level)
      have hmembers := (tokenizes_prettyMembers fun n hn => ih n hn (level + 1)).append hclose
        fun _ => by simpa using endsNumber_newLine_append level _
      simpa [Json.ofMembers, prettyChars, tokens, Token.chars] using
        hmembers.mark_append (t := .openObject) trivial rfl

theorem tokens?_prettyChars {v : Json} (h : v.IsPlain) (level : Nat) :
    tokens? (prettyChars level v) = some v.tokens := by
  simpa using h.tokenizes_pretty level [] [] .nil rfl

/-! ## From tokens to values -/

/-- The tokens `ts` take the reader from a state to another one. -/
def Leads (r : Reading) (ts : List Token) (r' : Reading) : Prop :=
  ts.foldlM Reading.step r = some r'

theorem Leads.append {r r' r'' : Reading} {ts us : List Token} (h : Leads r ts r')
    (h' : Leads r' us r'') : Leads r (ts ++ us) r'' := by
  rw [Leads, List.foldlM_append, h]
  exact h'

theorem Leads.cons {r r' r'' : Reading} {t : Token} {ts : List Token} (h : r.step t = some r')
    (h' : Leads r' ts r'') : Leads r (t :: ts) r'' := by
  rw [Leads, List.foldlM_cons, h]
  exact h'

/-- A value can be read wherever one may start. -/
def IsRead (v : Json) : Prop :=
  ∀ stack, Leads (.value stack) v.tokens (.after v stack)

/-- The induction is on the elements to come. -/
theorem leads_elementTokens {v : Json} {elements : List Json}
    (h : ∀ w ∈ v :: elements, w.IsRead) (before : List Json) (stack : List Frame) :
    Leads (.value (.array before :: stack)) (elementTokens (v :: elements) ++ [.closeArray])
      (.after (.array (before.reverse ++ v :: elements)) stack) := by
  induction elements generalizing v before with
  | nil =>
    have hv := h v List.mem_cons_self (.array before :: stack)
    refine hv.append (.cons ?_ rfl)
    simp [Reading.step]
  | cons w elements ih =>
    have hv := h v List.mem_cons_self (.array before :: stack)
    have hrest := ih (fun u hu => h u (List.mem_cons_of_mem v hu)) (v :: before)
    rw [elementTokens, List.append_assoc, List.append_assoc]
    refine hv.append (.cons rfl ?_)
    simpa using hrest

theorem leads_memberTokens {m : Quoted × Json} {members : List (Quoted × Json)}
    (h : ∀ n ∈ m :: members, n.2.IsRead) (before : List (Quoted × Json)) (stack : List Frame) :
    Leads (.key before stack) (memberTokens (m :: members) ++ [.closeObject])
      (.after (.object (before.reverse ++ m :: members)) stack) := by
  induction members generalizing m before with
  | nil =>
    have hm := h m List.mem_cons_self (.object before m.1 :: stack)
    refine .cons rfl (.cons rfl (hm.append (.cons ?_ rfl)))
    simp [Reading.step]
  | cons n members ih =>
    have hm := h m List.mem_cons_self (.object before m.1 :: stack)
    have hrest := ih (fun u hu => h u (List.mem_cons_of_mem m hu)) (m :: before)
    rw [memberTokens, List.append_assoc, List.append_assoc]
    refine .cons rfl (.cons rfl (hm.append (.cons rfl ?_)))
    simpa using hrest

/-- No value begins with a closing mark, so the first element of an array is read like any other
value. -/
theorem exists_elementTokens_eq_cons (v : Json) (elements : List Json) :
    ∃ t more, elementTokens (v :: elements) = t :: more ∧ t ≠ .closeArray := by
  have hv : ∃ t more, v.tokens = t :: more ∧ t ≠ .closeArray := by
    cases v with
    | null | bool | number | text | array | object => exact ⟨_, _, rfl, Token.noConfusion⟩
  obtain ⟨t, more, htokens, ht⟩ := hv
  cases elements with
  | nil => exact ⟨t, more, htokens, ht⟩
  | cons w elements => exact ⟨t, _, by rw [elementTokens, htokens]; rfl, ht⟩

theorem Leads.firstElement {r : Reading} {t : Token} {ts : List Token} {stack : List Frame}
    (ht : t ≠ .closeArray) (h : Leads (.value (.array [] :: stack)) (t :: ts) r) :
    Leads (.firstElement stack) (t :: ts) r := by
  have hstep : (Reading.firstElement stack).step t =
      (Reading.value (.array [] :: stack)).step t := by
    cases t with
    | closeArray => exact absurd rfl ht
    | _ => rfl
  rw [Leads, List.foldlM_cons] at h ⊢
  rwa [hstep]

theorem exists_memberTokens_eq_cons (m : Quoted × Json) (members : List (Quoted × Json)) :
    ∃ more, memberTokens (m :: members) = .quoted m.1 :: more := by
  cases members with
  | nil => exact ⟨_, rfl⟩
  | cons n members => exact ⟨_, rfl⟩

/-- The first key of an object is read like any other key. -/
theorem Leads.firstKey {r : Reading} {key : Quoted} {ts : List Token} {stack : List Frame}
    (h : Leads (.key [] stack) (.quoted key :: ts) r) :
    Leads (.firstKey stack) (.quoted key :: ts) r := h

theorem IsPlain.isRead {v : Json} (h : v.IsPlain) : v.IsRead := by
  induction h with
  | null | bool | ofNat | ofString => exact fun stack => rfl
  | @array elements h ih =>
    intro stack
    cases elements with
    | nil => rfl
    | cons v elements =>
      have hread := leads_elementTokens ih [] stack
      obtain ⟨t, more, htokens, ht⟩ := exists_elementTokens_eq_cons v elements
      rw [htokens] at hread
      rw [tokens, htokens]
      exact .cons rfl (hread.firstElement ht)
  | @ofMembers members h ih =>
    intro stack
    cases members with
    | nil => rfl
    | cons m members =>
      have hmembers : ∀ n ∈ (m :: members).map fun m => ((some m.1 : Quoted), m.2),
          n.2.IsRead := by
        rw [List.forall_mem_map]
        exact ih
      have hread := leads_memberTokens hmembers [] stack
      obtain ⟨more, hmore⟩ := exists_memberTokens_eq_cons ((some m.1 : Quoted), m.2)
        (members.map fun m => (some m.1, m.2))
      rw [hmore] at hread
      rw [Json.ofMembers, List.map_cons, tokens, hmore]
      exact .cons rfl hread.firstKey

/-- A text with the tokens of a value is read as the value. -/
theorem parse?_of_tokens {v : Json} (h : v.IsPlain) {s : String}
    (hs : tokens? s.toList = some v.tokens) : parse? s = some v := by
  have hread : v.tokens.foldlM Reading.step (.value []) = some (.after v []) := h.isRead []
  rw [parse?, hs]
  simp [hread, Reading.result?]

/-- Reading undoes writing. -/
theorem parse?_compact {v : Json} (h : v.IsPlain) : parse? v.compact = some v := by
  refine parse?_of_tokens h ?_
  rw [compact, String.toList_ofList, tokens?_compactChars h]

/-- Reading undoes writing over several lines. -/
theorem parse?_pretty {v : Json} (h : v.IsPlain) : parse? v.pretty = some v := by
  refine parse?_of_tokens h ?_
  rw [pretty, String.toList_ofList, tokens?_prettyChars h]

end Json

end GeoPolicy

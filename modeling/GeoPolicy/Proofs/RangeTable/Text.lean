import GeoPolicy.Proofs.Address.Notation
import GeoPolicy.Proofs.RangeTable.History

/-!
# Tables by text

A text stands for the range that is written in it between blanks. So what is asked by the canonical
text of a range or an address is the same as what is asked by the range or the address itself, after
any history of requests, and a text that denotes no range leaves the table as it was. The length of
a range is read with a plus sign in front of it, though no range is written so.
-/

namespace GeoPolicy

open Text

/-! ## Texts between blanks -/

namespace Network

theorem parse_eq_ok_iff {s : String} {n : Network} :
    parse s = .ok n ↔ ∃ sign ∈ signs, IsWritten sign (trimChars s.toList) n := by
  rw [← ofChars?_eq_some_iff, parse]
  cases ofChars? (trimChars s.toList) <;> simp

/-- The error quotes the text without the blanks around it. -/
theorem eq_invalidRange_of_parse {s : String} {e : Error} (h : parse s = .error e) :
    e = .invalidRange (trim s) := by
  rw [parse] at h
  split at h
  · exact absurd h (by simp)
  · exact (Except.error.inj h).symm

end Network

section Blanks

variable {before after s : String} (hbefore : ∀ c ∈ before.toList, isBlank c = true)
  (hafter : ∀ c ∈ after.toList, isBlank c = true)
include hbefore hafter

theorem trimChars_between_blanks (hs : IsWord s.toList) :
    trimChars (before ++ s ++ after).toList = s.toList := by
  rw [String.toList_append, String.toList_append, trimChars_append_append hbefore _ hafter,
    trimChars_word hs]

theorem Network.parse_between_blanks {n : Network} (hs : IsWritten [] s.toList n) :
    parse (before ++ s ++ after) = .ok n := by
  refine parse_eq_ok_iff.2 ⟨[], by simp [signs], ?_⟩
  rwa [trimChars_between_blanks hbefore hafter hs.isWord]

theorem Address.parse_between_blanks {a : Address} (hs : ofChars? s.toList = some a) :
    parse (before ++ s ++ after) = .ok a := by
  rw [parse, trimChars_between_blanks hbefore hafter (isWord_of_ofChars? hs), hs]

end Blanks

namespace RangeTable

variable {α : Type}

/-! ## Histories -/

theorem reach_append_singleton (history : List (Request α)) (q : Request α) :
    reach (history ++ [q]) = q.after (reach history) := by
  rw [reach, List.foldl_append]
  rfl

/-- A text asks for what the range asks for that is written in it. -/
theorem Request.ofText_of_parse {s : String} {n : Network} (h : Network.parse s = .ok n)
    (history : List (Request α)) (value : α) :
    (Request.ofText s value).perform (reach history) =
        (Request.ofNetwork n value).perform (reach history) ∧
      reach (history ++ [.ofText s value]) = reach (history ++ [.ofNetwork n value]) := by
  have hperform : (Request.ofText s value).perform (reach history) =
      (Request.ofNetwork n value).perform (reach history) :=
    insertText_of_ok h (reach history) value
  refine ⟨hperform, ?_⟩
  rw [reach_append_singleton, reach_append_singleton, Request.after, hperform, Request.after]

/-- A request that fails has a text without a range, and leaves the table as it was. -/
theorem Request.ofText_of_error {s : String} {value : α} {e : Error}
    {history : List (Request α)}
    (h : (Request.ofText s value).perform (reach history) = .error e) :
    e = .invalidRange (trim s) ∧ reach (history ++ [.ofText s value]) = reach history := by
  constructor
  · cases hparse : Network.parse s with
    | ok n =>
      have hok := (Request.ofText_of_parse hparse history value).1.symm.trans h
      exact absurd hok (by simp [Request.perform])
    | error e' =>
      have herror := (insertText_of_error hparse (reach history) value).symm.trans h
      exact Except.error.inj herror ▸ Network.eq_invalidRange_of_parse hparse
  · rw [reach_append_singleton, Request.after, h]

/-! ## Canonical texts -/

/-- A text is as good as what is written in it. After any history of requests, and with any blanks
around the text, a request by the canonical text of a range, or by the bare text of an address for
the range of that address alone, has the same outcome and leaves the same table as the request by
the range, and so it is with the query for the text of an address. A request that is rejected gets
an error that quotes the text without the blanks around it, and leaves the table as it was. -/
theorem text_requests_of_reach (history : List (Request α)) {before after : String}
    (hbefore : ∀ c ∈ before.toList, isBlank c = true)
    (hafter : ∀ c ∈ after.toList, isBlank c = true) :
    (∀ (a : Address) (length : Nat) (hle : length ≤ a.width) (value : α),
      (Request.ofText (before ++ (a.text ++ "/" ++ toString length) ++ after) value).perform
          (reach history) = (Request.ofNetwork ⟨a, length, hle⟩ value).perform (reach history) ∧
      reach (history ++ [.ofText (before ++ (a.text ++ "/" ++ toString length) ++ after) value]) =
        reach (history ++ [.ofNetwork ⟨a, length, hle⟩ value])) ∧
    (∀ (a : Address) (value : α),
      (Request.ofText (before ++ a.text ++ after) value).perform (reach history) =
        (Request.ofNetwork (.host a) value).perform (reach history) ∧
      reach (history ++ [.ofText (before ++ a.text ++ after) value]) =
        reach (history ++ [.ofNetwork (.host a) value])) ∧
    (∀ a : Address, (reach history).matchText (before ++ a.text ++ after) =
      .ok ((reach history).longestMatch a)) ∧
    ∀ (s : String) (value : α) (e : Error),
      (Request.ofText s value).perform (reach history) = .error e →
        e = .invalidRange (trim s) ∧ reach (history ++ [.ofText s value]) = reach history := by
  refine ⟨fun a length hle value => ?_, fun a value => ?_, fun a => ?_, fun s value e h =>
    Request.ofText_of_error h⟩
  · have hwritten := Network.isWritten_text ⟨a, length, hle⟩
    exact Request.ofText_of_parse
      (Network.parse_between_blanks hbefore hafter hwritten) history value
  · have hwritten : Network.IsWritten [] a.text.toList (.host a) := .host (Address.ofChars?_text a)
    exact Request.ofText_of_parse
      (Network.parse_between_blanks hbefore hafter hwritten) history value
  · rw [matchText, Address.parse_between_blanks hbefore hafter (Address.ofChars?_text a)]
    rfl

/-- A range inside the mapped addresses, with blanks of several kinds around its text. -/
theorem text_requests_of_reach_mapped :
    reach [.ofText " \t::ffff:10.0.0.0/104\u00a0\n" "x"] =
        reach [.ofNetwork ⟨.v6 0xffff0a000000, 104, by decide⟩ "x"] ∧
      (reach [.ofText " \t::ffff:10.0.0.0/104\u00a0\n" "x"]).matchText
        " \t::ffff:10.1.2.3\u00a0\n" = .ok (some "x") := by
  have hbefore : ∀ c ∈ " \t".toList, isBlank c = true := List.all_eq_true.1 rfl
  have hafter : ∀ c ∈ "\u00a0\n".toList, isBlank c = true := List.all_eq_true.1 rfl
  have hrange := ((text_requests_of_reach [] hbefore hafter).1
    (.v6 0xffff0a000000) 104 (by decide) "x").2
  have hquery := (text_requests_of_reach [.ofText " \t::ffff:10.0.0.0/104\u00a0\n" "x"]
    hbefore hafter).2.2.1 (.v6 0xffff0a010203)
  refine ⟨hrange, hquery.trans ?_⟩
  rw [List.nil_append] at hrange
  refine congrArg Except.ok ((congrArg (longestMatch · _) hrange).trans ?_)
  decide +kernel

/-! ## Accepted texts -/

theorem insertText_eq_ok_iff {t : RangeTable α} {s : String} {value : α} :
    (∃ r, t.insertText s value = .ok r) ↔ ∃ n, Network.parse s = .ok n := by
  cases h : Network.parse s with
  | ok n => simp [insertText_of_ok h]
  | error e => simp [insertText_of_error h]

/-- Exactly these texts are accepted: an address between blanks, or an address, a slash and a
number of bits that the address has, in decimal digits with a plus sign in front of them or with
none. All other texts get the same error. -/
theorem insertText_accepts_iff (t : RangeTable α) (s : String) (value : α) :
    ((∃ r, t.insertText s value = .ok r) ↔
      (∃ n, Network.IsWritten [] (trimChars s.toList) n) ∨
        ∃ n, Network.IsWritten ['+'] (trimChars s.toList) n) ∧
    (∀ sign ∈ Network.signs, ∀ n, Network.IsWritten sign (trimChars s.toList) n →
      t.insertText s value = .ok (t.get? n, t.insert n value)) ∧
    ((∀ sign ∈ Network.signs, ∀ n, ¬Network.IsWritten sign (trimChars s.toList) n) →
      t.insertText s value = .error (.invalidRange (trim s))) := by
  refine ⟨?_, fun sign hsign n hn => ?_, fun hnone => ?_⟩
  · rw [insertText_eq_ok_iff]
    simp [Network.parse_eq_ok_iff, Network.signs, exists_or]
  · exact insertText_of_ok (Network.parse_eq_ok_iff.2 ⟨sign, hsign, hn⟩) t value
  · cases h : Network.parse s with
    | ok n =>
      obtain ⟨sign, hsign, hn⟩ := Network.parse_eq_ok_iff.1 h
      exact absurd hn (hnone sign hsign n)
    | error e => rw [insertText_of_error h, Network.eq_invalidRange_of_parse h]

/-- A length with a sign is accepted, though no range is written so. -/
theorem insertText_accepts_sign :
    ¬∀ (t : RangeTable String) (s value : String), (∃ r, t.insertText s value = .ok r) ↔
      ∃ n, Network.IsWritten [] (trimChars s.toList) n := by
  intro h
  have haccepted : ∃ n, Network.parse "10.0.0.0/+8" = .ok n := ⟨_, rfl⟩
  obtain ⟨n, hn⟩ := (h empty "10.0.0.0/+8" "x").1 (insertText_eq_ok_iff.2 haccepted)
  have hsign : '+' ∈ trimChars "10.0.0.0/+8".toList := by decide
  exact hn.not_mem hsign

end RangeTable

end GeoPolicy

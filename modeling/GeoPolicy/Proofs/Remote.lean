import GeoPolicy.Proofs.GenerateRequest
import GeoPolicy.Proofs.Parity
import GeoPolicy.Proofs.Script.Shape
import GeoPolicy.Proofs.Text.Utf8
import GeoPolicy.Remote

/-!
# Faithful servers

A server is faithful if it compiles the policy that a request asks for and sends the result back,
either the script alone or script and ruleset as JSON. Its scripts are always on a par with those
of the compiler, whatever the two clocks show.

## Main definitions

* `Parity.Passes` — two generators that are on a par for a policy.
* `Remote.serve` — what a faithful server makes of the body of a request.
-/

namespace GeoPolicy

open Compiler Script

/-! ## Compiled policies -/

/-- Priorities count the regions, so they fit into 32 bits. -/
theorem Compiler.priority_lt_of_compile {t : Timestamp} {p : Policy} {c : CompiledPolicy}
    (h : compile t p = .ok c) : ∀ rule ∈ c.ruleset.rules, rule.priority < 0x100000000 := by
  obtain ⟨variant, -, rfl⟩ := compile_eq_ok_iff.1 h
  intro rule hrule
  obtain ⟨index, hindex, rfl⟩ := List.mem_mapIdx.1 hrule
  have hlength : (ranges variant p).length = p.effectiveRegions.length := by
    rw [ranges, Policy.targets, List.length_map, List.length_map]
  have hregions := p.length_effectiveRegions_le
  show index + 1 < 0x100000000
  omega

/-- The time in the header does not count for parity. -/
theorem Compiler.isMatch_compare_of_compile {s t : Timestamp} {p : Policy} {c d : CompiledPolicy}
    (hc : compile s p = .ok c) (hd : compile t p = .ok d) :
    (ParityReport.compare c.script d.script).isMatch = true := by
  obtain ⟨v, hv, rfl⟩ := compile_eq_ok_iff.1 hc
  obtain ⟨w, hw, rfl⟩ := compile_eq_ok_iff.1 hd
  obtain rfl : v = w := Except.ok.inj (hv.symm.trans hw)
  rw [ParityReport.isMatch_compare_iff, significantLines_script, significantLines_script]

theorem Compiler.exists_compile_eq_ok {s : Timestamp} {p : Policy} {c : CompiledPolicy}
    (h : compile s p = .ok c) (t : Timestamp) : ∃ d, compile t p = .ok d := by
  obtain ⟨variant, hvariant, -⟩ := compile_eq_ok_iff.1 h
  exact ⟨_, compile_eq_ok_iff.2 ⟨variant, hvariant, rfl⟩⟩

namespace Parity

/-- The scripts that two generators make for a policy are on a par. -/
def Passes (p : Policy) (a b : Generator) : Prop :=
  ∃ report log, verify p a b = .ok (report, log) ∧ report.isMatch = true

theorem verify_of_generate {p : Policy} {a b : Generator} {c d : CompiledPolicy}
    (ha : a.generate p = .ok c) (hb : b.generate p = .ok d) :
    verify p a b = .ok (ParityReport.compare c.script d.script,
      record a.name b.name (ParityReport.compare c.script d.script)) := by
  rw [verify, ha, hb]
  rfl

end Parity

/-! ## Servers -/

namespace Remote

/-- What a faithful server makes of the body of a request, at the time its clock shows. -/
def serve (t : Timestamp) (body : String) : Except Error CompiledPolicy := do
  let request ← decode GenerateRequest.ofJson? body
  let p ← request.toPolicy
  compile t p

/-- A faithful server compiles the policy it is asked for. -/
theorem serve_request (t : Timestamp) (server : String) (p : Policy) :
    serve t (request server p).body = compile t p := by
  rw [serve, request, GenerateRequest.decode_compact_toJson]
  simp only [bind, Except.bind]
  rw [GenerateRequest.toPolicy_ofPolicy]
  exact compile_withEffectiveRegions t p

/-- Whether an answer claims to be JSON. -/
def isJson (response : Http.Response) : Bool :=
  Text.startsWith "application/json".toList response.mediaType.toList

theorem receive_script {response : Http.Response} {d : CompiledPolicy}
    (hstatus : response.status = 200) (htype : isJson response = false)
    (hbody : response.text? = some d.script) :
    receive (some response) = .ok ⟨d.script, ⟨[]⟩⟩ := by
  have herror : ¬response.isError = true := by simp [Http.Response.isError, hstatus]
  have hplain : ¬isJson response = true := by simp [htype]
  unfold receive
  dsimp only
  rw [if_neg herror, hbody]
  exact if_neg hplain

theorem receive_json {response : Http.Response} {d : CompiledPolicy}
    (hstatus : response.status = 200) (htype : isJson response = true)
    (hbody : response.text? = some d.toJson.compact)
    (hd : ∀ rule ∈ d.ruleset.rules, rule.priority < 0x100000000) :
    receive (some response) = .ok ⟨d.script, d.ruleset.markRemote⟩ := by
  have herror : ¬response.isError = true := by simp [Http.Response.isError, hstatus]
  unfold receive
  dsimp only
  rw [if_neg herror, hbody]
  refine (if_pos htype).trans ?_
  rw [decode_compact d.isPlain_toJson (CompiledPolicy.ofJson?_toJson hd)]
  rfl

/-- A faithful server always passes the parity check, with either form of answer. What is assumed
of the transport is that it brings the answer to this request unchanged. -/
theorem passes_of_serve {s : Timestamp} {p : Policy} {c : CompiledPolicy}
    (h : compile s p = .ok c) (t : Timestamp) (server : String) :
    ∃ d, serve t (request server p).body = .ok d ∧
      ∀ (transport : Http.Transport) (response : Http.Response),
        transport (request server p) = some response → response.status = 200 →
        (isJson response = false → response.text? = some d.script →
          (Generator.remote transport server).generate p = .ok ⟨d.script, ⟨[]⟩⟩ ∧
            Parity.Passes p (.compiler s) (.remote transport server)) ∧
        (isJson response = true → response.text? = some d.toJson.compact →
          (Generator.remote transport server).generate p =
              .ok ⟨d.script, ⟨d.ruleset.rules.map ({ · with source := .remote })⟩⟩ ∧
            Parity.Passes p (.compiler s) (.remote transport server)) := by
  obtain ⟨d, hd⟩ := exists_compile_eq_ok h t
  refine ⟨d, by rw [serve_request, hd], fun transport response hresponse hstatus => ?_⟩
  have hgenerate : (Generator.remote transport server).generate p = receive (some response) := by
    rw [← hresponse]
    rfl
  have hpasses : ∀ rules, (Generator.remote transport server).generate p =
      .ok ⟨d.script, ⟨rules⟩⟩ → Parity.Passes p (.compiler s) (.remote transport server) := by
    intro rules hanswer
    have hmatch := isMatch_compare_of_compile h hd
    exact ⟨_, _, Parity.verify_of_generate (a := .compiler s) h hanswer, hmatch⟩
  constructor
  · intro htype hbody
    have hanswer := hgenerate.trans (receive_script hstatus htype hbody)
    exact ⟨hanswer, hpasses _ hanswer⟩
  · intro htype hbody
    have hanswer := hgenerate.trans
      (receive_json hstatus htype hbody (priority_lt_of_compile hd))
    exact ⟨hanswer, hpasses _ hanswer⟩

/-! ## An exchange -/

/-- The answer that is the given text. -/
def plainResponse (s : String) : Http.Response where
  status := 200
  contentType := some "text/plain"
  body := Utf8.encode s

theorem text?_plainResponse {s : String} (h : (Utf8.encode s).length ≤ Http.Response.textLimit) :
    (plainResponse s).text? = some s := by
  rw [Http.Response.text?, plainResponse, if_pos ⟨rfl, h⟩, Utf8.decodeLossy_encode]

/-- A server that answers with bare scripts, and nothing in between. -/
def directTransport (t : Timestamp) : Http.Transport := fun request =>
  (serve t request.body).toOption.map (plainResponse ·.script)

theorem length_text_le {ls : List Line} {k : Nat} (h : ∀ l ∈ ls, l.text.toList.length ≤ k) :
    (Script.text ls).toList.length ≤ ls.length * (k + 1) := by
  rw [Script.text, textOf, String.toList_join]
  induction ls with
  | nil => exact Nat.zero_le _
  | cons l ls ih =>
    have hl := h l List.mem_cons_self
    have hls := ih fun m hm => h m (List.mem_cons_of_mem l hm)
    rw [List.map_cons, List.map_cons, List.flatMap_cons, List.length_append, String.toList_append,
      List.length_append, List.length_cons, Nat.succ_mul]
    have hfeed : "\n".toList.length = 1 := rfl
    omega

/-- The default policy with a rule for each range. -/
def singleRules : Policy where
  useAddressSet := false
  regions_nodup := List.nodup_nil

theorem length_line_singleRules_le : ∀ l ∈ script ⟨1, 0⟩ .singleRules singleRules,
    l.text.toList.length ≤ 200 := by
  have hrange : ∀ x ∈ (regionRanges .singleRules singleRules RegionCode.default.text).v4,
      (Line.matchRange .v4 x.cidr "DROP").text.toList.length ≤ 200 := by
    intro x hx
    obtain ⟨i, hi⟩ := exists_cidr_of_mem_synthesize hx
    have hdigits : ∀ n < 1000, (Nat.toDigits 10 n).length ≤ 3 := fun n hn =>
      (Nat.length_toDigits_le_iff (by decide) (by decide)).2 hn
    have hfirst := hdigits ((Synthesis.seed RegionCode.default.text + i * 7) % 223 + 1) (by omega)
    have hsecond := hdigits ((Synthesis.seed RegionCode.default.text * (i + 1)) % 256) (by omega)
    have hlength := hdigits (16 + i % 9) (by omega)
    have hzero := hdigits 0 (by omega)
    rw [Line.toList_text, Line.chars, hi, Synthesis.cidr, Synthesis.toList_v4Cidr]
    simp [spelled, spelledFor]
    omega
  rw [script, Variant.body_eq]
  simp only [List.forall_mem_append]
  refine ⟨⟨by decide +kernel, ⟨by decide +kernel, ?_⟩, by decide +kernel⟩, by decide +kernel⟩
  show ∀ l ∈ [regionRanges .singleRules singleRules RegionCode.default.text].flatMap _, _
  rw [List.flatMap_singleton]
  show ∀ l ∈ [Line.heading .rules RegionCode.default.text] ++ _ ++ [], _
  rw [List.append_nil, List.forall_mem_append, List.forall_mem_map]
  exact ⟨by decide, hrange⟩

/-- A script that is short enough for its bytes to be read as text. -/
theorem passes_of_serve_singleRules :
    ∃ d, serve ⟨1, 0⟩ (request "" singleRules).body = .ok d ∧
      (Generator.remote (directTransport ⟨1, 0⟩) "").generate singleRules =
        .ok ⟨d.script, ⟨[]⟩⟩ ∧
      Parity.Passes singleRules (.compiler ⟨0, 0⟩) (.remote (directTransport ⟨1, 0⟩) "") := by
  have hvariant : Variant.ofPolicy singleRules = .ok .singleRules := rfl
  have hcompile := (compile_eq_ok_iff (t := ⟨0, 0⟩)).2 ⟨.singleRules, hvariant, rfl⟩
  obtain ⟨d, hd, hpasses⟩ := passes_of_serve hcompile ⟨1, 0⟩ ""
  have hscript : d.script = Script.text (script ⟨1, 0⟩ .singleRules singleRules) := by
    obtain ⟨variant, hvariant', rfl⟩ := compile_eq_ok_iff.1 ((serve_request _ _ _).symm.trans hd)
    obtain rfl : .singleRules = variant := Except.ok.inj (hvariant.symm.trans hvariant')
    rfl
  have hcount : (script ⟨1, 0⟩ .singleRules singleRules).length = 35 := by
    have hshapes := (admits_script ⟨1, 0⟩ hvariant).length_eq
    rw [Variant.length_shapes, List.length_map] at hshapes
    exact hshapes.symm
  have hbytes : (Utf8.encode d.script).length ≤ Http.Response.textLimit := by
    have hchars := length_text_le length_line_singleRules_le
    have hbytes := Utf8.length_encode_le d.script
    rw [hscript] at hbytes ⊢
    rw [Http.Response.textLimit]
    omega
  have htransport : directTransport ⟨1, 0⟩ (request "" singleRules) =
      some (plainResponse d.script) := by
    rw [directTransport, hd]
    rfl
  have htype : isJson (plainResponse d.script) = false := by
    have hplain : isJson (plainResponse "") = false := by decide
    exact hplain
  exact ⟨d, hd, (hpasses _ _ htransport rfl).1 htype (text?_plainResponse hbytes)⟩

end Remote

end GeoPolicy

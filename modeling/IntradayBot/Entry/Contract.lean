import IntradayBot.Data.Except
import IntradayBot.Entry.Handoff
import IntradayBot.Data.NumberText
import IntradayBot.Node.Intake
import IntradayBot.Node.Validator

/-!
# The contract of the handoff

What Python delivers is read by Node as JSON, taken into its memory (`acceptDirectCandidate`) and
checked again before it is executed (`assertFirstTradeCandidate`, `validateContract`). The two
sides do not check alike: Python reads `entryReference` with `float`, which takes `inf` and texts
that `Number` does not, it copies facts that may be no JSON, and its white space is not that of
JavaScript. `handoff_accepted_iff` tells the candidates that both sides accept.
-/

namespace IntradayBot.Entry

open Node Node.HybridRepository PyText

/-- Node takes a candidate that it does not know, and finds nothing wrong with its facts. -/
def Accepts (payload : Json) (m : Memory) : Prop :=
  ∃ command m', acceptDirectCandidate payload m = (.ok (command, false), m') ∧
    assertFirstTradeCandidate command.payload = .ok () ∧
    validateContract command.payload command.candidateKey = .ok ()

/-- The payload arrives as JSON, and Node accepts it. -/
def Accepted (payload : PyDict) (m : Memory) : Prop :=
  ∃ j, PyValue.toJson (.dict payload) = some j ∧ Accepts j m

/-- The facts of a candidate that both sides read alike. -/
structure Transmissible (repr : PyValue → String) (candidate : PyDict) : Prop where
  /-- The facts that are copied have no infinite number and no `nan`. -/
  copied : ∀ k ∈ copied, (candidate.get k).finite
  /-- The entry price is finite. -/
  entry : (candidate.get "entryReference").float? ≠ .ok (.inf false)
  /-- The entry price, if it is a text, is plain. -/
  plain : ∀ s, candidate.get "entryReference" = .str s → Plain s
  /-- The key has no byte order mark at its ends. -/
  key : Bare (· = '\uFEFF') (candidateKeyOf repr candidate).toList
  /-- The symbol is not blank. -/
  symbol : ∃ c ∈ (symbolOf repr candidate).toList, ¬Json.isBlank c

/-! ## Texts -/

theorem trim_eq_self_iff {s : String} : Json.trim s = s ↔ Bare Json.isBlank s.toList := by
  rw [← trimBy_eq_self_iff, ← String.toList_inj, Json.trim, String.toList_ofList]
  rfl

theorem trim_eq_empty_iff {s : String} : Json.trim s = "" ↔ ∀ c ∈ s.toList, Json.isBlank c := by
  rw [← trimBy_eq_nil_iff, ← String.toList_inj, Json.trim, String.toList_ofList]
  rfl

/-- A character that Python's `strip` leaves is dropped by `trim` only if it is a byte order
    mark. -/
theorem isBlank_of_not_isSpace {c : Char} (h : ¬isSpace c) : Json.isBlank c ↔ c = '\uFEFF' := by
  constructor
  · intro hb
    have hcode : c.toNat = 0xfeff := by
      simp only [isSpace, decide_eq_true_eq] at h
      simp only [Json.isBlank, decide_eq_true_eq] at hb
      omega
    rw [← Char.ofNat_toNat c, hcode]
  · rintro rfl
    decide

/-- `trim` keeps a text that was stripped unless it has a byte order mark at its ends. -/
theorem trim_strip_iff {s : String} :
    Json.trim (strip s) = strip s ↔ Bare (· = '\uFEFF') (strip s).toList := by
  have hbare : Bare isSpace (strip s).toList := by
    rw [strip, String.toList_ofList]
    exact trimBy_bare isSpace s.toList
  rw [trim_eq_self_iff]
  constructor
  · intro h
    refine ⟨fun c hc => ?_, fun c hc => ?_⟩
    · simpa using mt (isBlank_of_not_isSpace (hbare.head c hc)).2 (h.head c hc)
    · simpa using mt (isBlank_of_not_isSpace (hbare.last c hc)).2 (h.last c hc)
  · intro h
    refine ⟨fun c hc => ?_, fun c hc => ?_⟩
    · exact mt (isBlank_of_not_isSpace (hbare.head c hc)).1 (by simpa using h.head c hc)
    · exact mt (isBlank_of_not_isSpace (hbare.last c hc)).1 (by simpa using h.last c hc)

theorem upperCase_eq_empty_iff {s : String} : Json.upperCase s = "" ↔ s = "" := by
  have hempty : s.toList = [] ↔ s = "" := by
    rw [← String.toList_inj]
    rfl
  rw [← hempty, ← String.toList_inj, Json.upperCase, String.toList_ofList]
  exact List.map_eq_nil_iff

/-! ## Numbers -/

/-- A number that Python takes for positive is one for Node too exactly if it is finite and, if
    it is a text, plain. -/
theorem positive_number_iff {v : PyValue} {x : Double} (hx : v.float? = .ok x) (hpos : x.positive) :
    (∃ j, v.toJson = some j ∧ ∃ q, Json.toNumber (some j) = some q ∧ 0 < q) ↔
      v.float? ≠ .ok (.inf false) ∧ ∀ s, v = .str s → Plain s := by
  -- the exact numbers that both sides read are those of the finite doubles
  have hfinite : ∀ q, x = .finite q → 0 < q := by
    rintro q rfl
    simpa [Double.positive] using hpos
  have hinf : x = .inf false ∨ ∃ q, x = .finite q := by
    rcases x with q | negative | _
    · exact .inr ⟨q, rfl⟩
    · cases negative
      · exact .inl rfl
      · simp [Double.positive] at hpos
    · simp [Double.positive] at hpos
  rw [hx]
  cases v with
  | none | list l | dict l => simp [PyValue.float?] at hx
  | bool b =>
    simp only [PyValue.float?, Except.ok.injEq] at hx
    have hb := hfinite _ hx.symm
    cases b with
    | false => simp at hb
    | true => simp [PyValue.toJson, Json.toNumber, ← hx]
  | int n =>
    cases hq : Json.asDouble n with
    | none => simp [PyValue.float?, hq] at hx
    | some q =>
      simp only [PyValue.float?, hq, Option.elim_some] at hx
      obtain rfl := Except.ok.inj hx
      simp [PyValue.toJson, Json.toNumber, hq, hfinite q rfl]
  | float y =>
    obtain rfl := Except.ok.inj hx
    rcases hinf with rfl | ⟨q, rfl⟩
    · simp [PyValue.toJson]
    · simp [PyValue.toJson, Json.toNumber, hfinite q rfl]
  | str s =>
    cases hy : floatOfText s with
    | none => simp [PyValue.float?, hy] at hx
    | some y =>
      simp only [PyValue.float?, hy, Option.elim_some] at hx
      obtain rfl := Except.ok.inj hx
      simp only [PyValue.toJson, Option.some.injEq, exists_eq_left', Json.toNumber, ne_eq,
        Except.ok.injEq, PyValue.str.injEq, forall_eq']
      constructor
      · rintro ⟨q, hq, -⟩
        have hplain := plain_of_parseNumber hq
        refine ⟨?_, hplain⟩
        rintro rfl
        rw [parseNumber_of_plain hplain hy] at hq
        simp [toRat] at hq
      · rintro ⟨hne, hplain⟩
        rw [parseNumber_of_plain hplain hy]
        rcases hinf with rfl | ⟨q, rfl⟩
        · exact absurd rfl hne
        · exact ⟨q, rfl, hfinite q rfl⟩

/-! ## The payload -/

/-- The payload is read as JSON exactly if the facts that are copied are finite. -/
theorem payload_isSome (repr : PyValue → String) (candidate : PyDict) :
    (PyValue.fieldsToJson (payloadOf repr candidate)).isSome ↔
      (∀ k ∈ copied, (candidate.get k).finite) ∧ (candidate.get "entryReference").finite := by
  rw [PyValue.fieldsToJson_isSome]
  simp [payloadOf, PyValue.finiteFields, PyValue.finite, copied]
  tauto

/-- What Node reads of the facts of the payload that it checks. -/
structure Received (repr : PyValue → String) (candidate : PyDict) (j : Json) : Prop where
  object : ∃ l, j = .obj l
  candidateKey : j.get "candidateKey" = some (.str (candidateKeyOf repr candidate))
  symbol : j.get "symbol" = some (.str (symbolOf repr candidate))
  side : j.get "side" = some (.str ((candidate.get "side").textOrEmpty repr))
  grade : j.get "grade" = some (.str ((candidate.get "grade").textOrEmpty repr))
  entryReference : j.get "entryReference" = (candidate.get "entryReference").toJson
  riskApproved : j.get "riskApproved" = some (.bool true)
  riskStatus : j.get "riskStatus" = some (.str "APPROVED_RISK")
  riskPerTradePct : j.get "riskPerTradePct" = some (.num 1)
  gradeRiskPct : j.get "gradeRiskPct" = some (.num 1)
  effectiveRiskPerTradePct : j.get "effectiveRiskPerTradePct" = some (.num 1)
  executionStatus : j.get "executionStatus" = some (.str "AWAITING_NODE_EXECUTION")
  orderSubmitted : j.get "orderSubmitted" = some (.bool false)
  qualified : j.get "qualified" = some (.bool true)
  positionSizingStatus : j.get "positionSizingStatus" = none

theorem received {repr : PyValue → String} {candidate : PyDict} {l : List (String × Json)}
    (hl : PyValue.fieldsToJson (payloadOf repr candidate) = some l) :
    Received repr candidate (.obj l) where
  object := ⟨l, rfl⟩
  candidateKey := PyValue.lookup_fieldsToJson hl _
  symbol := PyValue.lookup_fieldsToJson hl _
  side := PyValue.lookup_fieldsToJson hl _
  grade := PyValue.lookup_fieldsToJson hl _
  entryReference := PyValue.lookup_fieldsToJson hl _
  riskApproved := PyValue.lookup_fieldsToJson hl _
  riskStatus := PyValue.lookup_fieldsToJson hl _
  riskPerTradePct := PyValue.lookup_fieldsToJson hl _
  gradeRiskPct := PyValue.lookup_fieldsToJson hl _
  effectiveRiskPerTradePct := PyValue.lookup_fieldsToJson hl _
  executionStatus := PyValue.lookup_fieldsToJson hl _
  orderSubmitted := PyValue.lookup_fieldsToJson hl _
  qualified := PyValue.lookup_fieldsToJson hl _
  positionSizingStatus := PyValue.lookup_fieldsToJson hl _

/-- A text other than the empty one reads as itself. -/
theorem textOrEmpty_str (s : String) : Json.textOrEmpty (some (.str s)) = s := by
  by_cases hs : s = "" <;> simp [Json.textOrEmpty, Json.truthy, hs]

section

variable {repr : PyValue → String} {candidate : PyDict} {j : Json}
  (hj : Received repr candidate j) (he : Executable repr candidate)

include hj he

/-- The key that Node takes the candidate under. -/
theorem directCandidateKey_received :
    directCandidateKey j =
      if Json.trim (candidateKeyOf repr candidate) = "" ∨
          Json.upperCase (Json.trim (symbolOf repr candidate)) = "" then
        .error (.error "Direct candidate identity is invalid")
      else .ok (Json.trim (candidateKeyOf repr candidate)) := by
  have hside := he.side
  have hgrade := he.grade
  simp only [List.mem_cons, List.not_mem_nil, or_false] at hside hgrade
  simp [directCandidateKey, hj.candidateKey, hj.symbol, hj.side, hj.grade, hj.riskApproved,
    hj.riskStatus, hj.riskPerTradePct, hj.orderSubmitted, textOrEmpty_str, Json.isTrue,
    Json.isFalse, Json.toNumber, hside, hgrade]

theorem grade_received :
    Json.textOrEmpty (Json.orElse (j.get "grade")
      (Json.orElse (j.get "qualityGrade") (j.get "signalGrade"))) =
        (candidate.get "grade").textOrEmpty repr := by
  have hgrade := he.grade
  have hne : (candidate.get "grade").textOrEmpty repr ≠ "" := by
    rintro h
    simp [h] at hgrade
  rw [hj.grade, Json.orElse, if_pos (by simpa [Json.truthy] using hne), textOrEmpty_str]

theorem assertFirstTradeCandidate_received : assertFirstTradeCandidate j = .ok () := by
  have hgrade : Json.upperCase ((candidate.get "grade").textOrEmpty repr) ∈ ["A+", "A"] := by
    have hgrade := he.grade
    simp only [List.mem_cons, List.not_mem_nil, or_false] at hgrade
    rcases hgrade with hg | hg <;> rw [hg] <;> decide
  have hrisk : gradeRiskPct (Json.upperCase ((candidate.get "grade").textOrEmpty repr)) = some 1 :=
    if_pos hgrade
  unfold assertFirstTradeCandidate
  simp only [grade_received hj he, hrisk, hj.gradeRiskPct, hj.effectiveRiskPerTradePct,
    hj.qualified, bind_eq_ok, ensure_eq_ok, exists_const]
  refine ⟨⟨hgrade, rfl⟩, .inl rfl, ?_, ?_⟩
  · norm_num [Json.coalesce, Json.toNumber]
  · norm_num [Json.coalesce, Json.toNumber]

theorem validateContract_received {key : String} :
    validateContract j key = .ok () ↔
      candidateKeyOf repr candidate = key ∧
        ∃ q, Json.toNumber (candidate.get "entryReference").toJson = some q ∧ 0 < q := by
  have hlegacy : legacySizingApproved j = false := by
    simp [legacySizingApproved, hj.positionSizingStatus, Json.isText]
  have hdirect : directRiskApproved j := by
    simp [directRiskApproved, hj.riskApproved, hj.riskStatus, Json.isTrue, textOrEmpty_str]
  have hside : hasSide j := by
    have hside := he.side
    simp only [List.mem_cons, List.not_mem_nil, or_false] at hside
    rcases hside with hs | hs <;> simp [hasSide, hj.side, hs, Json.isText]
  unfold validateContract validateCandidateFacts
  simp only [grade_received hj he, hlegacy, hdirect, hside, hj.candidateKey, hj.symbol,
    hj.executionStatus, hj.orderSubmitted, hj.entryReference, hj.riskPerTradePct, bind_eq_ok,
    ensure_eq_ok, positiveNumber_eq_ok, exists_const]
  obtain ⟨l, rfl⟩ := hj.object
  simp [Json.truthy, he.key, he.symbol, he.grade, Json.isText, Json.isFalse, Json.coalesce,
    Json.toNumber, pure, Except.pure]

/-- What Node accepts of a candidate that it does not know. -/
theorem accepts_received {m : Memory}
    (hm : m.direct.get? (Json.trim (candidateKeyOf repr candidate)) = none) :
    Accepts j m ↔
      Json.trim (candidateKeyOf repr candidate) = candidateKeyOf repr candidate ∧
        Json.trim (symbolOf repr candidate) ≠ "" ∧
        ∃ q, Json.toNumber (candidate.get "entryReference").toJson = some q ∧ 0 < q := by
  have hkey := directCandidateKey_received hj he
  simp only [upperCase_eq_empty_iff] at hkey
  constructor
  · rintro ⟨command, m', haccept, -, hcontract⟩
    split_ifs at hkey with hempty
    · simp [acceptDirectCandidate, hkey] at haccept
    · rw [accept_new hkey hm] at haccept
      obtain ⟨rfl, -⟩ := Prod.mk.inj (Except.ok.inj (Prod.mk.inj haccept).1)
      have hcontract := (validateContract_received hj he).1 hcontract
      exact ⟨hcontract.1.symm, (not_or.1 hempty).2, hcontract.2⟩
  · rintro ⟨htrim, hsymbol, hentry⟩
    rw [if_neg (not_or.2 ⟨htrim.symm ▸ he.key, hsymbol⟩)] at hkey
    have hcontract : validateContract j (Json.trim (candidateKeyOf repr candidate)) = .ok () :=
      (validateContract_received hj he).2 ⟨htrim.symm, hentry⟩
    exact ⟨directCommand _ j m.now, _, accept_new hkey hm,
      assertFirstTradeCandidate_received hj he, hcontract⟩

end

/-! ## The contract -/

/-- A candidate that leaves Python with a payload is accepted by a repository that does not
    know it exactly if both sides read its facts alike. -/
theorem handoff_accepted_iff (repr : PyValue → String) (candidate payload : PyDict) (m : Memory)
    (h : handoffPayload repr candidate = .ok (.ok payload))
    (hm : m.direct.get? (Json.trim (candidateKeyOf repr candidate)) = none) :
    Accepted payload m ↔ Transmissible repr candidate := by
  obtain ⟨rfl, he⟩ := handoffPayload_eq_ok h
  obtain ⟨x, hx, hpos⟩ := he.entry
  have hentry := positive_number_iff hx hpos
  -- Python strips its own white space first; all that JavaScript may trim of the rest is a byte
  -- order mark.
  have hkey : Json.trim (candidateKeyOf repr candidate) = candidateKeyOf repr candidate ↔
      Bare (· = '\uFEFF') (candidateKeyOf repr candidate).toList := trim_strip_iff
  have hsymbol : Json.trim (symbolOf repr candidate) ≠ "" ↔
      ∃ c ∈ (symbolOf repr candidate).toList, ¬Json.isBlank c := by
    rw [Ne, trim_eq_empty_iff]
    simp
  constructor
  · rintro ⟨j, hj, haccepts⟩
    obtain ⟨l, hl, rfl⟩ := Option.map_eq_some_iff.1 hj
    have hfinite := (payload_isSome repr candidate).1 (hl ▸ rfl)
    obtain ⟨htrim, hne, q, hq, hqpos⟩ := (accepts_received (received hl) he hm).1 haccepts
    obtain ⟨v, hv⟩ : ∃ v, (candidate.get "entryReference").toJson = some v := by
      rw [← Option.isSome_iff_exists, PyValue.toJson_isSome]
      exact hfinite.2
    have hread := hentry.1 ⟨v, hv, q, hv ▸ hq, hqpos⟩
    exact ⟨hfinite.1, hread.1, hread.2, hkey.1 htrim, hsymbol.1 hne⟩
  · rintro ⟨hcopied, hfinite, hplain, hbare, hnonblank⟩
    obtain ⟨v, hv, q, hq, hqpos⟩ := hentry.2 ⟨hfinite, hplain⟩
    have hsome : (PyValue.fieldsToJson (payloadOf repr candidate)).isSome := by
      refine (payload_isSome repr candidate).2 ⟨hcopied, ?_⟩
      rw [← PyValue.toJson_isSome, hv]
      rfl
    obtain ⟨l, hl⟩ := Option.isSome_iff_exists.1 hsome
    refine ⟨.obj l, Option.map_eq_some_iff.2 ⟨l, hl, rfl⟩, ?_⟩
    exact (accepts_received (received hl) he hm).2
      ⟨hkey.2 hbare, hsymbol.2 hnonblank, q, hv ▸ hq, hqpos⟩

/-- A candidate that Entry Safety approved at a price. -/
def approvedAt (entryReference : PyValue) : PyDict :=
  [("candidateKey", .str "BTCUSDT-1"), ("symbol", .str "btcusdt"), ("side", .str "Buy"),
    ("grade", .str "A"), ("gradeScore", .int 7), ("entryReference", entryReference),
    ("createdAt", .int 1000), ("riskApproved", .bool true), ("riskStatus", .str "APPROVED_RISK"),
    ("orderSubmitted", .bool false)]

/-- An infinite price leaves Python as a name that is no JSON. -/
theorem handoff_not_accepted : ¬∀ repr candidate payload (m : Memory),
    handoffPayload repr candidate = .ok (.ok payload) →
    m.direct.get? (Json.trim (candidateKeyOf repr candidate)) = none → Accepted payload m := by
  intro h
  have hpayload : handoffPayload (fun _ => "") (approvedAt (.float (.inf false))) =
      .ok (.ok (payloadOf (fun _ => "") (approvedAt (.float (.inf false))))) := rfl
  obtain ⟨j, hj, -⟩ := h _ _ _ emptyWorld.mem hpayload rfl
  have hnone : (PyValue.toJson (.dict (payloadOf (fun _ => "")
      (approvedAt (.float (.inf false)))))).isSome = false := by
    rw [PyValue.toJson_isSome]
    decide +kernel
  rw [hj] at hnone
  cases hnone

/-- A price given as a text with an exponent is read alike by both sides. -/
theorem handoff_accepted_text :
    Accepted (payloadOf (fun _ => "") (approvedAt (.str " 6.5e4 "))) emptyWorld.mem := by
  have hprice : (approvedAt (.str " 6.5e4 ")).get "entryReference" = .str " 6.5e4 " := rfl
  have hfloat : PyValue.float? (.str " 6.5e4 ") = .ok (.finite 65000) := by decide +kernel
  have hpayload : handoffPayload (fun _ => "") (approvedAt (.str " 6.5e4 ")) =
      .ok (.ok (payloadOf (fun _ => "") (approvedAt (.str " 6.5e4 ")))) := by
    have hpositive : positive (.str " 6.5e4 ") = .ok true := by
      rw [positive, hfloat]
      decide +kernel
    unfold handoffPayload
    rw [hprice, hpositive]
    rfl
  refine (handoff_accepted_iff _ _ _ _ hpayload rfl).2 ⟨?_, ?_, ?_, ?_, ?_⟩
  · decide +kernel
  · rw [hprice, hfloat]
    decide +kernel
  · rw [hprice]
    rintro s ⟨⟩
    decide +kernel
  · have hkey : Json.trim (strip "BTCUSDT-1") = strip "BTCUSDT-1" := by decide +kernel
    exact trim_strip_iff.1 hkey
  · exact ⟨'B', by decide +kernel, by decide +kernel⟩

end IntradayBot.Entry

import ReqlDriver.Connection.Cursor
import ReqlDriver.Proofs.Datum.Parts
import ReqlDriver.Proofs.Entries

namespace ReqlDriver

theorem ResponseType.ofCode?_eq_some_iff {n : Nat} {type : ResponseType} :
    ResponseType.ofCode? n = some type ↔ type.code = n := by
  constructor
  · intro h
    simpa using List.find?_some h
  · rintro rfl
    cases type <;> rfl

namespace Response

def isSequenceCode (code : Json) : Bool :=
  (code.asNat?.bind ResponseType.ofCode?).any ResponseType.isSequence

def arrayShape (code result : Json) (options : List (String × Json)) : Json :=
  .array [code, result, .object options]

def present (entries : List (String × Json)) (key : String) : List (String × Json) :=
  (Entries.get? entries key).toList.map fun v => (key, v)

def shapeEntries (code result : Json) (options : List (String × Json)) : List (String × Json) :=
  present options "b" ++ present options "e" ++ present options "p" ++
    [("r", if isSequenceCode code then result else .array [result]), ("t", code)]

def objectShape (code result : Json) (options : List (String × Json)) : Json :=
  .object (shapeEntries code result options)

variable {code result : Json} {entries options : List (String × Json)} {type : ResponseType}

theorem typeOf_eq_ok_iff {code : Option Json} :
    typeOf code = .ok type ↔ code.bind Json.asNat? = some type.code := by
  unfold typeOf
  cases code.bind Json.asNat? with
  | none => simp
  | some n =>
    have hn : n = type.code ↔ ResponseType.ofCode? n = some type := by
      rw [ResponseType.ofCode?_eq_some_iff, eq_comm]
    rw [Option.some_inj, hn]
    dsimp only
    cases ResponseType.ofCode? n <;> simp

theorem isSequenceCode_eq (h : typeOf (some code) = .ok type) :
    isSequenceCode code = type.isSequence := by
  have hn : code.asNat? = some type.code := typeOf_eq_ok_iff.mp h
  rw [isSequenceCode, hn, Option.bind_some, ResponseType.ofCode?_eq_some_iff.mpr rfl,
    Option.any_some]

theorem isSequenceCode_of_error {e : ProtocolFault} (h : typeOf (some code) = .error e) :
    isSequenceCode code = false := by
  unfold isSequenceCode
  cases hb : code.asNat?.bind ResponseType.ofCode? with
  | none => rfl
  | some type =>
    obtain ⟨n, hn, ht⟩ := Option.bind_eq_some_iff.mp hb
    obtain rfl := ResponseType.ofCode?_eq_some_iff.mp ht
    have ho : typeOf (some code) = .ok type := typeOf_eq_ok_iff.mpr hn
    rw [h] at ho
    cases ho

theorem get?_present (entries : List (String × Json)) (key other : String) :
    Entries.get? (present entries key) other =
      if other = key then Entries.get? entries key else none := by
  unfold present
  cases Entries.get? entries key <;> simp [Entries.get?_cons]

theorem withOptions_congr (result : Datum)
    (h : ∀ key ∈ ["b", "p", "e"], Entries.get? entries key = Entries.get? options key) :
    withOptions type result entries = withOptions type result options := by
  have hb := h "b" (by simp)
  have hp := h "p" (by simp)
  have he := h "e" (by simp)
  simp only [withOptions, hb, hp, he]

theorem ofItems_eq (result : Json) (options : List (String × Json))
    (ht : typeOf (some code) = .ok type) : ofItems [code, result, .object options] =
      (resultOf type result).map fun d => withOptions type d options := by
  cases hr : resultOf type result <;>
    simp [ofItems, bind, Except.bind, Except.map, ht, hr, optionsOf]

theorem ofEntries_eq (hc : Entries.get? entries "t" = some code)
    (ht : typeOf (some code) = .ok type) : ofEntries entries =
      .ok (withOptions type (resultOfRows type (rowsOf (Entries.get? entries "r"))) entries) := by
  simp [ofEntries, bind, Except.bind, hc, ht]

theorem resultOf_sequence (hs : type.isSequence = true) (rows : List Json) :
    resultOf type (.array rows) = .ok (resultOfRows type rows) := by
  simp [resultOf, resultOfRows, hs]

theorem resultOf_single (hs : type.isSequence = false) (result : Json) :
    resultOf type result = .ok (resultOfRows type [result]) := by
  cases he : type.isError <;> simp [resultOf, resultOfRows, hs, he, firstMessage]

theorem resultOf_eq_ok_iff {d : Datum} (hs : type.isSequence = true) :
    resultOf type result = .ok d ↔ ∃ rows, result = .array rows ∧ resultOfRows type rows = d := by
  cases result <;> simp [resultOf, resultOfRows, hs]

theorem get?_shapeEntries_code (code result : Json) (options : List (String × Json)) :
    Entries.get? (shapeEntries code result options) "t" = some code := by
  simp [shapeEntries, Entries.get?_append, get?_present, Entries.get?_cons]

theorem get?_shapeEntries_result (code result : Json) (options : List (String × Json)) :
    Entries.get? (shapeEntries code result options) "r" =
      some (if isSequenceCode code then result else .array [result]) := by
  simp [shapeEntries, Entries.get?_append, get?_present, Entries.get?_cons]

theorem get?_shapeEntries_option (code result : Json) (options : List (String × Json)) :
    ∀ key ∈ ["b", "p", "e"], Entries.get? (shapeEntries code result options) key =
      Entries.get? options key := by
  simp [shapeEntries, Entries.get?_append, get?_present, Entries.get?_cons]

theorem ofJson_objectShape (result : Json) (options : List (String × Json))
    (ht : typeOf (some code) = .ok type) : ofJson (objectShape code result options) =
      .ok (withOptions type (resultOfRows type
        (rowsOf (some (if type.isSequence then result else .array [result])))) options) := by
  have hc := get?_shapeEntries_code code result options
  have hr := get?_shapeEntries_result code result options
  rw [isSequenceCode_eq ht] at hr
  rw [objectShape, ofJson, ofEntries_eq hc ht, hr]
  exact congrArg Except.ok (withOptions_congr _ (get?_shapeEntries_option code result options))

/-- An array and the object that says the same are read alike, or refused alike, except where the
code of a sequence comes with a result that is no array. -/
theorem ofJson_shapes_eq_iff (code result : Json) (options : List (String × Json)) :
    ofJson (arrayShape code result options) = ofJson (objectShape code result options) ↔
      (isSequenceCode code = true → ∃ rows, result = .array rows) := by
  cases ht : typeOf (some code) with
  | error e =>
    have ha : ofJson (arrayShape code result options) = .error e := by
      simp [arrayShape, ofJson, ofItems, bind, Except.bind, ht]
    have ho : ofJson (objectShape code result options) = .error e := by
      simp [objectShape, ofJson, ofEntries, bind, Except.bind, get?_shapeEntries_code, ht]
    simp [ha, ho, isSequenceCode_of_error ht]
  | ok type =>
    have ha : ofJson (arrayShape code result options) =
        (resultOf type result).map fun d => withOptions type d options :=
      ofItems_eq result options ht
    rw [ha, ofJson_objectShape result options ht, isSequenceCode_eq ht]
    cases hs : type.isSequence with
    | false =>
      rw [resultOf_single hs]
      simp [Except.map, rowsOf]
    | true =>
      simp only [if_true, true_implies]
      constructor
      · intro he
        cases hr : resultOf type result with
        | error e =>
          rw [hr] at he
          cases he
        | ok d =>
          obtain ⟨rows, rfl, -⟩ := (resultOf_eq_ok_iff hs).mp hr
          exact ⟨rows, rfl⟩
      · rintro ⟨rows, rfl⟩
        rw [resultOf_sequence hs]
        rfl

def code? : Json → Option Nat
  | .array items => items[0]?.bind Json.asNat?
  | .object entries => (Entries.get? entries "t").bind Json.asNat?
  | _ => none

def messageIn : Json → String
  | .array items => errorMessage (items[1]?.getD .null)
  | .object entries => firstMessage (rowsOf (Entries.get? entries "r"))
  | _ => ""

def optionsIn : Json → List (String × Json)
  | .array items => optionsOf items[2]?
  | .object entries => entries
  | _ => []

def traceIn (v : Json) : Option Datum := (Entries.get? (optionsIn v) "b").map Datum.ofJson

def errorTypeIn (v : Json) : Option ErrorType :=
  ((Entries.get? (optionsIn v) "e").bind Json.asNat?).bind ErrorType.ofCode?

/-- The rows in a payload. The result in an object is a row of its own where it is no array. -/
def rowsIn? : Json → Option (List Json)
  | .array (_ :: .array rows :: _) => some rows
  | .object entries => match Entries.get? entries "r" with
    | some (.array rows) => some rows
    | some row => some [row]
    | none => some []
  | _ => none

def reported? (v : Json) : Option Error :=
  match code? v with
  | some 16 => some (.client (messageIn v) (traceIn v))
  | some 17 => some (.compile (messageIn v) (traceIn v))
  | some 18 => some (.runtime (messageIn v) (traceIn v) (errorTypeIn v))
  | _ => none

variable {v : Json} {r : Response}

theorem code?_of_ofJson (h : ofJson v = .ok r) : code? v = some r.type.code := by
  cases v with
  | array items =>
    cases ht : typeOf items[0]? with
    | error e => simp [ofJson, ofItems, bind, Except.bind, ht] at h
    | ok type =>
      cases hd : resultOf type (items[1]?.getD .null) with
      | error e => simp [ofJson, ofItems, bind, Except.bind, ht, hd] at h
      | ok d =>
        obtain rfl : withOptions type d (optionsOf items[2]?) = r := by
          simpa [ofJson, ofItems, bind, Except.bind, ht, hd] using h
        exact typeOf_eq_ok_iff.mp ht
  | object entries =>
    cases ht : typeOf (Entries.get? entries "t") with
    | error e => simp [ofJson, ofEntries, bind, Except.bind, ht] at h
    | ok type =>
      obtain rfl : withOptions type _ entries = r := by
        simpa [ofJson, ofEntries, bind, Except.bind, ht] using h
      exact typeOf_eq_ok_iff.mp ht
  | _ => cases h

theorem ofJson_of_isError (hc : code? v = some type.code) (he : type.isError = true) :
    ofJson v = .ok (withOptions type (.string (messageIn v)) (optionsIn v)) := by
  have hs : type.isSequence = false := by
    cases type <;> simp_all [ResponseType.isError, ResponseType.isSequence]
  cases v with
  | array items =>
    have ht : typeOf items[0]? = .ok type := typeOf_eq_ok_iff.mpr hc
    simp [ofJson, ofItems, bind, Except.bind, ht, resultOf, hs, he, messageIn, optionsIn]
  | object entries =>
    have ht : typeOf (Entries.get? entries "t") = .ok type := typeOf_eq_ok_iff.mpr hc
    simp [ofJson, ofEntries, bind, Except.bind, ht, resultOfRows, hs, he, messageIn, optionsIn]
  | _ => cases hc

theorem reported?_eq (v : Json) : reported? v = (ofJson v).toOption.bind error? := by
  have hread (type : ResponseType) {e : Error} (hc : code? v = some type.code)
      (he : type.isError = true)
      (hr : (withOptions type (.string (messageIn v)) (optionsIn v)).error? = some e) :
      (ofJson v).toOption.bind error? = some e := by
    rw [ofJson_of_isError hc he]
    exact hr
  unfold reported?
  split
  · rename_i hc
    exact (hread .clientError hc rfl rfl).symm
  · rename_i hc
    exact (hread .compileError hc rfl rfl).symm
  · rename_i hc
    exact (hread .runtimeError hc rfl rfl).symm
  · rename_i h₁ h₂ h₃
    cases hr : ofJson v with
    | error e => rfl
    | ok r =>
      have hc := code?_of_ofJson hr
      have hn : r.error? = none := by
        unfold error?
        cases ht : r.type <;> rw [ht] at hc
        case clientError => exact absurd hc h₁
        case compileError => exact absurd hc h₂
        case runtimeError => exact absurd hc h₃
      exact hn.symm

theorem isQueryError_reported {e : Error} (h : reported? v = some e) : e.isQueryError = true := by
  unfold reported? at h
  split at h <;> cases h <;> rfl

theorem ofJson_of_rowsIn {rows : List Json} (hc : code? v = some type.code)
    (hs : type.isSequence = true) (hr : rowsIn? v = some rows) :
    ofJson v = .ok (withOptions type (Datum.ofJson (.array rows)) (optionsIn v)) := by
  cases v with
  | array items =>
    have ht : typeOf items[0]? = .ok type := typeOf_eq_ok_iff.mpr hc
    have hi : items[1]?.getD .null = .array rows := by
      unfold rowsIn? at hr
      split at hr <;> simp_all
    simp [ofJson, ofItems, bind, Except.bind, ht, hi, resultOf, hs, optionsIn]
  | object entries =>
    have ht : typeOf (Entries.get? entries "t") = .ok type := typeOf_eq_ok_iff.mpr hc
    have he : rowsOf (Entries.get? entries "r") = rows := by
      simp only [rowsIn?] at hr
      unfold rowsOf
      split at hr <;> simp_all
    simp [ofJson, ofEntries, bind, Except.bind, ht, he, resultOfRows, hs, optionsIn]
  | _ => cases hr

theorem rows_of_rowsIn {rows : List Json} (hc : code? v = some type.code)
    (hs : type.isSequence = true) (hr : rowsIn? v = some rows) :
    ∃ r, ofJson v = .ok r ∧ r.type = type ∧ r.rows = rows.map Datum.ofJson := by
  refine ⟨_, ofJson_of_rowsIn hc hs hr, rfl, ?_⟩
  rw [← Datum.ofItems_eq_map]
  rfl

end Response

namespace Frame

variable {f : Frame} {r : Response} {e : Error}

theorem answer_eq_ok (h : Response.ofJson f.payload = .ok r) : f.answer = .ok r := by
  rw [answer, h]
  rfl

theorem answer_eq_error {cause : ProtocolFault} (h : Response.ofJson f.payload = .error cause) :
    f.answer = .error (.protocol cause) := by
  rw [answer, h]
  rfl

theorem checked_reported (h : Response.reported? f.payload = some e) :
    f.answer.checked = .error e := by
  rw [Response.reported?_eq] at h
  cases hr : Response.ofJson f.payload with
  | error e' => simp [hr, Except.toOption] at h
  | ok r =>
    have hu : r.error? = some e := by simpa [hr, Except.toOption] using h
    have he : r.type.isError = true := by
      unfold Response.error? at hu
      cases ht : r.type <;> simp_all [ResponseType.isError]
    simp [Answer.checked, answer_eq_ok hr, Except.bind, he, Response.unexpected, hu]

theorem checked_unreported (h : Response.reported? f.payload = none)
    (hr : Response.ofJson f.payload = .ok r) : f.answer.checked = .ok r := by
  have hn : r.error? = none := by simpa [Response.reported?_eq, hr, Except.toOption] using h
  have he : r.type.isError = false := by
    unfold Response.error? at hn
    cases ht : r.type <;> simp_all [ResponseType.isError]
  simp [Answer.checked, answer_eq_ok hr, Except.bind, he]

end Frame

end ReqlDriver

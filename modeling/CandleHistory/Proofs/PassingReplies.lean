import CandleHistory.Proofs.Attempts
import CandleHistory.Proofs.NearestDouble
import CandleHistory.Proofs.Replies

/-!
Which outcomes of a request ask for another attempt, and which are refusals. Both are said here of
the status and the body alone, clause by clause, and then shown to be what the client makes of a
reply. A reply is left out if nothing came of the request that the client could look at, or if its
return code is a list or an object.
-/

namespace CandleHistory

/-- A double equals one whole number at most. -/
theorem Number.Binary64.eq_of_equalsInt {x : Binary64} {m n : Int} (hm : x.equalsInt m = true)
    (hn : x.equalsInt n = true) : m = n := by
  cases x with
  | nan => cases hm
  | infinite negative => cases hm
  | finite negative units =>
      have hunits : m * Binary64.unitsPerOne = n * Binary64.unitsPerOne :=
        (beq_iff_eq.mp hm).symm.trans (beq_iff_eq.mp hn)
      have hpos : (Binary64.unitsPerOne : Int) ≠ 0 :=
        Int.natCast_ne_zero.mpr (Nat.ne_of_gt Binary64.unitsPerOne_pos)
      exact Int.eq_of_mul_eq_mul_right hpos hunits

/-- So does every datum. -/
theorem Value.eq_of_equalsInt {value : Value} {m n : Int} (hm : value.equalsInt m = true)
    (hn : value.equalsInt n = true) : m = n := by
  cases value with
  | boolean b => exact (beq_iff_eq.mp hm).trans (beq_iff_eq.mp hn).symm
  | integer k => exact (beq_iff_eq.mp hm).symm.trans (beq_iff_eq.mp hn)
  | real x => exact Number.Binary64.eq_of_equalsInt hm hn
  | null => cases hm
  | text value => cases hm
  | list items => cases hm
  | tuple items => cases hm
  | object fields => cases hm

/-- What has to be an error that passes, if another attempt is asked for. -/
theorem PageAnswer.exists_of_isTransient {answer : PageAnswer} (h : answer.isTransient = true) :
    ∃ message, answer = .failed (.transient message) := by
  cases answer with
  | page rows => cases h
  | broke fault => cases h
  | failed reason =>
      cases reason with
      | transient message => exact ⟨message, rfl⟩
      | rejected code message => cases h
      | undelivered message => cases h
      | malformed reason => cases h

namespace Reply

/-- The return code of an object; without the field it is null. -/
def returnCode (fields : List (String × Value)) : Value :=
  (Value.field? "retCode" fields).getD .null

/-- Whether a return code is one of those for a timeout, for too many requests and for a busy
server. -/
def isBusyCode (code : Value) : Bool :=
  code.equalsInt 10000 || code.equalsInt 10006 || code.equalsInt 10016

/-- Whether a status says that there are too many requests or that the server has failed. -/
def isOverload (status : Int) : Bool := status == 429 || 500 ≤ status

/-- Whether the body of a response asks for another attempt. What cannot be understood does, unless
the status blames the client for it; so does what is no object, and an object that says that the
server is busy. -/
def bodyPasses (status : Int) : Body → Bool
  | .undecodable _ => status < 400
  | .decoded (.object fields) => isBusyCode (returnCode fields)
  | .decoded _ => true

/-- Whether an outcome passes, so that another attempt is worth while. -/
def isPassing : Reply → Bool
  | .lost _ => true
  | .broke _ => false
  | .response status body => isOverload status || bodyPasses status body

/-- The code with which an object refuses the request: its return code, or zero if that is zero but
there is no result. -/
def objectRefusal? (fields : List (String × Value)) : Option Value :=
  if (returnCode fields).equalsInt 0 then
    match Value.field? "result" fields with
    | some (.object _) => none
    | _ => some (.integer 0)
  else if isBusyCode (returnCode fields) then none
  else some (if (returnCode fields).isInteger then returnCode fields else .integer (-1))

/-- The code with which an outcome refuses the request, unless it passes. Of a response without a
document, it is the status. -/
def refusalCode? : Reply → Option Value
  | .response status (.undecodable _) =>
    if 400 ≤ status ∧ status < 500 ∧ status ≠ 429 then some (.integer status) else none
  | .response _ (.decoded (.object fields)) => objectRefusal? fields
  | _ => none

/-- A lost connection, or a response whose return code, if it has one, can be looked up in a set. -/
def Plain : Reply → Prop
  | .response _ (.decoded (.object fields)) => (returnCode fields).isKey = true
  | .response _ _ => True
  | .lost _ => True
  | .broke _ => False

theorem any_transientCodes (code : Value) :
    transientCodes.any code.equalsInt = isBusyCode code := by
  simp [transientCodes, isBusyCode, Bool.or_assoc]

theorem isBusyCode_of_not_isKey {code : Value} (h : code.isKey = false) :
    isBusyCode code = false := by
  simp [isBusyCode, equalsInt_of_isKey h]

theorem resultObject_isTransient (fields : List (String × Value)) :
    (resultObject fields).isTransient = false := by
  unfold resultObject
  split <;> rfl

theorem refusal_isTransient (code message : Value) :
    (refusal code message).isTransient = isBusyCode code := by
  unfold refusal
  cases hkey : code.isKey with
  | false =>
      rw [isBusyCode_of_not_isKey hkey]
      rfl
  | true =>
      rw [any_transientCodes]
      cases isBusyCode code <;> rfl

/-- A code of zero is none of the codes for a busy server. -/
theorem isBusyCode_of_zero {code : Value} (h : code.equalsInt 0 = true) :
    isBusyCode code = false := by
  have hother (n : Int) (hn : 0 ≠ n) : code.equalsInt n = false :=
    eq_false_of_ne_true fun hequal => hn (Value.eq_of_equalsInt h hequal)
  simp [isBusyCode, hother]

theorem readDocument_result (fields : List (String × Value)) :
    ∃ message, (readDocument (.object fields)).result =
      if (returnCode fields).equalsInt 0 = true then resultObject fields
      else refusal (returnCode fields) message := by
  refine ⟨(Value.field? "retMsg" fields).getD (.text ""), ?_⟩
  unfold readDocument returnCode
  dsimp only
  split <;> rfl

theorem readDocument_isTransient (status : Int) (document : Value) :
    (readDocument document).result.isTransient = bodyPasses status (.decoded document) := by
  cases document with
  | object fields =>
      obtain ⟨message, hresult⟩ := readDocument_result fields
      rw [hresult]
      split
      case isTrue hzero =>
        change _ = isBusyCode (returnCode fields)
        rw [isBusyCode_of_zero hzero]
        exact resultObject_isTransient fields
      case isFalse => exact refusal_isTransient _ _
  | _ => rfl

theorem isOverload_iff {status : Int} : isOverload status = true ↔ 500 ≤ status ∨ status = 429 := by
  simp [isOverload, or_comm]

/-- The client asks for another attempt if the outcome passes, and only then. -/
theorem read_isTransient (reply : Reply) : reply.read.result.isTransient = reply.isPassing := by
  cases reply with
  | lost text => rfl
  | broke fault => rfl
  | response status body =>
      change (readResponse status body).result.isTransient =
        (isOverload status || bodyPasses status body)
      unfold readResponse
      cases hstatus : isOverload status with
      | true =>
          rw [if_pos (isOverload_iff.mp hstatus)]
          rfl
      | false =>
          rw [if_neg fun h => Bool.false_ne_true (hstatus.symm.trans (isOverload_iff.mpr h))]
          cases body with
          | decoded document => exact readDocument_isTransient status document
          | undecodable reason =>
              by_cases hclient : 400 ≤ status
              · simp [hclient, bodyPasses, PageAnswer.isTransient, PageError.isTransient]
              · simp [hclient, bodyPasses, PageAnswer.isTransient, PageError.isTransient]
                omega

/-- What is made of an outcome that does not pass: a refusal with a given code, or a page. -/
def Settles : Option Value → PageAnswer → Prop
  | some code, answer => ∃ message, answer = .failed (.rejected code message)
  | none, answer => ∃ rows, answer = .page rows

theorem resultObject_settles {fields : List (String × Value)}
    (hzero : (returnCode fields).equalsInt 0 = true) :
    Settles (objectRefusal? fields) (resultObject fields) := by
  unfold objectRefusal? resultObject
  rw [if_pos hzero]
  cases Value.field? "result" fields with
  | none => exact ⟨_, rfl⟩
  | some result =>
      cases result with
      | object result => exact ⟨_, rfl⟩
      | _ => exact ⟨_, rfl⟩

theorem refusal_settles {fields : List (String × Value)} (message : Value)
    (hkey : (returnCode fields).isKey = true)
    (hzero : ¬ (returnCode fields).equalsInt 0 = true)
    (hbusy : isBusyCode (returnCode fields) = false) :
    Settles (objectRefusal? fields) (refusal (returnCode fields) message) := by
  unfold objectRefusal? refusal
  rw [if_neg hzero, hkey, any_transientCodes, hbusy]
  exact ⟨message, rfl⟩

/-- The client makes of a reply that does not pass what the reply says. -/
theorem read_settles {reply : Reply} (hplain : reply.Plain) (h : reply.isPassing = false) :
    Settles reply.refusalCode? reply.read.result := by
  cases reply with
  | lost text => cases h
  | broke fault => cases hplain
  | response status body =>
      obtain ⟨hstatus, hbody⟩ := Bool.or_eq_false_iff.mp h
      have hrange : ¬ (500 ≤ status ∨ status = 429) := by
        rw [← isOverload_iff, hstatus]
        exact Bool.false_ne_true
      change Settles _ (readResponse status body).result
      unfold readResponse
      rw [if_neg hrange]
      cases body with
      | undecodable reason =>
          have hclient : 400 ≤ status := Int.not_lt.mp (of_decide_eq_false hbody)
          have hrefused : 400 ≤ status ∧ status < 500 ∧ status ≠ 429 := by omega
          unfold refusalCode?
          simp only [if_pos hclient, if_pos hrefused]
          exact ⟨_, rfl⟩
      | decoded document =>
          cases document with
          | object fields =>
              obtain ⟨message, hresult⟩ := readDocument_result fields
              change Settles (objectRefusal? fields) (readDocument (.object fields)).result
              rw [hresult]
              split
              case isTrue hzero => exact resultObject_settles hzero
              case isFalse hzero => exact refusal_settles message hplain hzero hbody
          | _ => cases hbody

end Reply

end CandleHistory

import CandleHistory.Proofs.Printing

/-!
What the client makes of a reply. Whoever asks it for a page counts on rows in a list or on an error
of the transport. There are two kinds of documents with which they get something else; they are
named here, and every other reply gives what is counted on.
-/

namespace CandleHistory

/-- What is counted on: rows in a list, or an error of the transport. -/
inductive PageAnswer.Proper : PageAnswer → Prop
  | rows (items : List Value) : Proper (.page (.list items))
  | transient (message : String) : Proper (.failed (.transient message))
  | rejected (code message : Value) : Proper (.failed (.rejected code message))

/-- Documents that mislead the client: the return code cannot be looked up in a set, or it is zero
and something else than a list stands in the place of the rows. -/
def Value.Misleading : Value → Prop
  | .object fields =>
      let code := (Value.field? "retCode" fields).getD .null
      code.isKey = false ∨
        code.equalsInt 0 = true ∧ ∃ result rows,
          Value.field? "result" fields = some (.object result) ∧
          Value.field? "list" result = some rows ∧
          rows.isPresent = true ∧ ∀ items, rows ≠ .list items
  | _ => False

namespace Reply

/-- A connection that is lost, or a response whose document, if it is looked at, does not mislead.
-/
def Orderly : Reply → Prop
  | .response status body =>
      500 ≤ status ∨ status = 429 ∨ ∀ document, body = .decoded document → ¬ document.Misleading
  | .lost _ => True
  | .broke _ => False

theorem equalsInt_of_isKey {code : Value} {n : Int} (h : code.isKey = false) :
    code.equalsInt n = false := by
  cases code with
  | list items => rfl
  | object fields => rfl
  | tuple items => rfl
  | null => cases h
  | boolean value => cases h
  | integer value => cases h
  | real value => cases h
  | text value => cases h

theorem proper_rows_iff {rows : Value} :
    (PageAnswer.page (if rows.isPresent then rows else .list [])).Proper ↔
      (rows.isPresent = true → ∃ items, rows = .list items) := by
  cases hpresent : rows.isPresent with
  | false => exact ⟨fun _ => nofun, fun _ => .rows []⟩
  | true =>
      constructor
      · rintro h -
        generalize hanswer : PageAnswer.page (if true = true then rows else .list []) = answer at h
        cases h with
        | rows items =>
            cases hanswer
            exact ⟨items, rfl⟩
        | transient message => cases hanswer
        | rejected code message => cases hanswer
      · intro h
        obtain ⟨items, rfl⟩ := h rfl
        exact .rows items

/-- With a return code of zero, it depends on what stands in the place of the rows. -/
theorem resultObject_proper_iff {fields : List (String × Value)} :
    (resultObject fields).Proper ↔ ∀ result,
      Value.field? "result" fields = some (.object result) →
      ∀ rows, Value.field? "list" result = some rows → rows.isPresent = true →
        ∃ items, rows = .list items := by
  unfold resultObject
  split
  case h_1 result hresult =>
    rw [proper_rows_iff]
    constructor
    · intro h result' hresult' rows hrows hpresent
      rw [hresult] at hresult'
      cases hresult'
      rw [hrows] at h
      exact h hpresent
    · intro h hpresent
      cases hrows : Value.field? "list" result with
      | none =>
          rw [hrows] at hpresent
          cases hpresent
      | some rows =>
          rw [hrows] at hpresent
          exact h result hresult rows hrows hpresent
  case h_2 hnone =>
    refine ⟨fun _ result hresult => ?_, fun _ => .rejected _ _⟩
    exact absurd hresult (hnone result)

theorem refusal_proper_iff {code message : Value} :
    (refusal code message).Proper ↔ code.isKey = true := by
  unfold refusal
  cases hkey : code.isKey with
  | false => exact ⟨nofun, nofun⟩
  | true =>
      refine ⟨fun _ => rfl, fun _ => ?_⟩
      cases transientCodes.any code.equalsInt with
      | true => exact .transient _
      | false => exact .rejected _ _

theorem readDocument_proper_iff {document : Value} :
    (readDocument document).result.Proper ↔ ¬ document.Misleading := by
  cases document with
  | object fields =>
      unfold readDocument Value.Misleading
      dsimp only
      generalize (Value.field? "retCode" fields).getD .null = code
      cases hzero : code.equalsInt 0 with
      | true =>
          have hkey : code.isKey ≠ false := by
            intro hkey
            rw [equalsInt_of_isKey hkey] at hzero
            cases hzero
          simp [hkey, resultObject_proper_iff]
      | false => simp [refusal_proper_iff]
  | _ => exact ⟨fun _ => nofun, fun _ => .transient _⟩

theorem readResponse_proper_iff {status : Int} {body : Body} :
    (readResponse status body).result.Proper ↔ (Reply.response status body).Orderly := by
  unfold readResponse Orderly
  by_cases hstatus : 500 ≤ status ∨ status = 429
  · rw [if_pos hstatus]
    refine ⟨fun _ => ?_, fun _ => .transient _⟩
    exact hstatus.imp_right Or.inl
  · rw [if_neg hstatus]
    obtain ⟨hserver, hlimited⟩ := not_or.mp hstatus
    cases body with
    | decoded document => simp [hserver, hlimited, readDocument_proper_iff]
    | undecodable reason =>
        refine ⟨fun _ => Or.inr (Or.inr nofun), fun _ => ?_⟩
        dsimp only
        split
        · exact .rejected _ _
        · exact .transient _

/-- A reply gives what is counted on if it is orderly, and only then. -/
theorem read_proper_iff {reply : Reply} : reply.read.result.Proper ↔ reply.Orderly := by
  cases reply with
  | response status body => exact readResponse_proper_iff
  | lost text => exact ⟨fun _ => trivial, fun _ => .transient _⟩
  | broke fault => exact ⟨nofun, False.elim⟩

end Reply

namespace Program

variable {σ : Type}

/-- A call for a page gives what is made of the reply to its request. -/
theorem callPage_result (world : World (StateM σ)) (threshold : Nat) (call : PageCall)
    (memory : Memory) (state : σ) :
    (callPage world threshold call memory state).1.1 =
      (world.send (memory.client.ensureOpen.request (query call)) state).1.reply.read.result := by
  unfold callPage openSession sendCall
  rw [bind_memory, bind_memory, bind_memory]
  dsimp only
  split <;> rfl

/-- A call for a page gives what is counted on if the reply that the world sends is orderly, and
only then. -/
theorem callPage_proper_iff (world : World (StateM σ)) (threshold : Nat) (call : PageCall)
    (memory : Memory) (state : σ) :
    (callPage world threshold call memory state).1.1.Proper ↔
      (world.send (memory.client.ensureOpen.request (query call)) state).1.reply.Orderly := by
  rw [← Reply.read_proper_iff, callPage_result]

end Program

end CandleHistory

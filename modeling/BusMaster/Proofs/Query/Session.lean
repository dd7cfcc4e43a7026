import BusMaster.Query.Standard

/-!
# Running sessions

How a session runs over any carrier: the result of a mapped session is the mapped result
(`Session.run_map`), and the session of a query asks once and ends with its reading of the response
(`Session.run_ofQuery`). A query that was made is its request with its reading (`Query.make_eq_ok`),
and the two readings that most functions share accept what they should: `Query.countedData_cons`
for data with its count in front, `Query.checkEcho_take` for an echo.
-/

namespace BusMaster

namespace Query

/-- Inversion for the making of a query. -/
theorem make_eq_ok {α : Type} {unit : UnitId} {f : FunctionCode} {data : Bytes}
    {accept : Bytes → Bytes → Except RequestFault α} {q : Query α}
    (h : make unit f data accept = .ok q) :
    q = ⟨unit.value :: f.wire :: data, accept (unit.value :: f.wire :: data)⟩ := by
  unfold make at h
  dsimp only at h
  split at h
  · cases h
    rfl
  · cases h

/-- Data behind its own count is accepted as counted. -/
theorem countedData_cons {unit function : UInt8} {data : Bytes} {n : Nat}
    (length : data.length = n) (small : n < 256) :
    countedData n (unit :: function :: UInt8.ofNat data.length :: data) = .ok data := by
  have hcount : (UInt8.ofNat data.length).toNat = n := by
    rw [length]
    exact UInt8.toNat_ofNat_of_lt' small
  change (if (UInt8.ofNat data.length).toNat ≠ n then _
    else if data.length < n then _ else if n < data.length then _ else _) = _
  rw [if_neg fun hne => hne hcount, if_neg (by omega), if_neg (by omega)]

/-- A response that repeats the first bytes of the request is accepted as its echo. -/
theorem checkEcho_take {n : Nat} {request response : Bytes}
    (h : request.take n = response) : checkEcho n request response = .ok () := by
  rw [checkEcho]
  rw [h, if_neg fun hne => hne rfl, if_neg fun hne => hne rfl]

/-- No other response is. -/
theorem eq_take_of_checkEcho {n : Nat} {request response : Bytes}
    (h : checkEcho n request response = .ok ()) : response = request.take n := by
  rw [checkEcho] at h
  split at h
  · cases h
  · split at h
    · cases h
    · rename_i heq
      exact Decidable.not_not.1 heq

end Query

namespace Session

variable {α β σ : Type}

/-- Running a session with its result changed. -/
theorem run_map (c : Carrier σ) (g : α → β) (session : Session α) (s : σ) :
    (session.map g).run c s = ((session.run c s).1.map g, (session.run c s).2) := by
  induction session generalizing s with
  | done result => cases result <;> rfl
  | ask request next ih => exact ih _ _
  | tell request next ih => exact ih _ _
  | note line next ih => exact ih _

/-- Inversion for a session with its result changed. -/
theorem run_map_eq_ok {c : Carrier σ} {g : α → β} {session : Session α} {s s' : σ} {b : β}
    (h : (session.map g).run c s = (.ok b, s')) :
    ∃ a, session.run c s = (.ok a, s') ∧ g a = b := by
  rw [run_map] at h
  rcases hrun : session.run c s with ⟨result, s₁⟩
  rw [hrun] at h
  obtain ⟨hresult, rfl⟩ := Prod.mk.inj h
  cases result with
  | ok a => exact ⟨a, rfl, Except.ok.inj hresult⟩
  | error fault => cases hresult

/-- A session of a query that ends well had a query to begin with. -/
theorem ofQuery_eq_ok {c : Carrier σ} {e : Except RequestFault (Query α)} {s s' : σ} {a : α}
    (h : (ofQuery e).run c s = (.ok a, s')) : ∃ q, e = .ok q := by
  cases e with
  | ok q => exact ⟨q, rfl⟩
  | error fault => cases h

/-- Whatever line is noted, the end of a query is its reading of the response. -/
theorem run_settle (c : Carrier σ) (q : Query α) (response : Bytes) (s : σ) :
    ((settle q response).run c s).1 = q.accept response := by
  rw [settle]
  split
  · rename_i hecho
    exact hecho.symm
  · rfl

/-- A query that is answered ends with its reading of the response, where noting a line leaves the
carrier as it is. -/
theorem run_ofQuery {c : Carrier σ} (quiet : ∀ s l, c.note s l = s) {q : Query α} {s s' : σ}
    {response : Bytes} (asked : c.ask s q.request = (.ok response, s')) :
    (ofQuery (.ok q)).run c s = (q.accept response, s') := by
  rw [ofQuery, run, asked]
  change (settle q response).run c s' = _
  rw [settle]
  split
  · rename_i hecho
    rw [hecho, run, quiet]
    rfl
  · rfl

end Session

end BusMaster

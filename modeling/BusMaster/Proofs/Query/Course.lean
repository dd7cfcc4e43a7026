import BusMaster.Proofs.Query.Requests

/-!
# The course of a session

What a session has asked so far, and with what it ends, can be said of all its runs at once. The
course of a session is the requests whose exchanges were begun, in order, and the result once it is
over. A request that is refused, or that finds no link, begins no exchange, and the session is told
so by a fault; an exchange that was begun may bring anything. `Session.Throughout` says of each
point of the course that it satisfies a predicate. It goes through `bind` and `map` like the session
itself (`Session.throughout_bind`), so a session that is put together from queries is looked at
query by query.
-/

namespace BusMaster.Session

variable {α β : Type} {P : List Bytes → Option (Except RequestFault α) → Prop}
  {begun : List Bytes}

/-- at every point of the session `P` holds of the requests that were begun until then, some of them
before the session, and of the result, if it is over -/
def Throughout (P : List Bytes → Option (Except RequestFault α) → Prop) :
    Session α → List Bytes → Prop
  | .done result, begun => P begun none ∧ P begun (some result)
  | .ask request next, begun => P begun none ∧
      (∀ fault, (next (.error fault)).Throughout P begun) ∧
      ∀ result, (next result).Throughout P (begun ++ [request])
  | .tell request next, begun => P begun none ∧
      (∀ fault, (next (.error fault)).Throughout P begun) ∧
      ∀ result, (next result).Throughout P (begun ++ [request])
  | .note _ next, begun => next.Throughout P begun

namespace Throughout

/-- It holds at the point where the session stands. -/
theorem now {session : Session α} (h : session.Throughout P begun) : P begun none := by
  induction session with
  | done result => exact h.1
  | ask request next ih => exact h.1
  | tell request next ih => exact h.1
  | note line next ih => exact ih h

/-- What holds of everything holds throughout. -/
theorem of_forall (all : ∀ begun result, P begun result) (session : Session α)
    (begun : List Bytes) : session.Throughout P begun := by
  induction session generalizing begun with
  | done result => exact ⟨all _ _, all _ _⟩
  | ask request next ih => exact ⟨all _ _, fun _ => ih _ _, fun _ => ih _ _⟩
  | tell request next ih => exact ⟨all _ _, fun _ => ih _ _, fun _ => ih _ _⟩
  | note line next ih => exact ih _

theorem mono {Q : List Bytes → Option (Except RequestFault α) → Prop} {session : Session α}
    (h : session.Throughout P begun) (weaker : ∀ begun result, P begun result → Q begun result) :
    session.Throughout Q begun := by
  induction session generalizing begun with
  | done result => exact ⟨weaker _ _ h.1, weaker _ _ h.2⟩
  | ask request next ih =>
    exact ⟨weaker _ _ h.1, fun fault => ih _ (h.2.1 fault), fun result => ih _ (h.2.2 result)⟩
  | tell request next ih =>
    exact ⟨weaker _ _ h.1, fun fault => ih _ (h.2.1 fault), fun result => ih _ (h.2.2 result)⟩
  | note line next ih => exact ih h

end Throughout

/-- what has to hold of the course of a session, when `f` goes on with its result -/
def Onward (P : List Bytes → Option (Except RequestFault α) → Prop) (f : β → Session α)
    (begun : List Bytes) : Option (Except RequestFault β) → Prop
  | none => P begun none
  | some (.ok b) => (f b).Throughout P begun
  | some (.error fault) => P begun (some (.error fault))

theorem throughout_bind {f : β → Session α} {session : Session β}
    (h : session.Throughout (Onward P f) begun) : (session.bind f).Throughout P begun := by
  induction session generalizing begun with
  | done result =>
    cases result with
    | ok b => exact h.2
    | error fault => exact h
  | ask request next ih => exact ⟨h.1, fun fault => ih _ (h.2.1 fault), fun r => ih _ (h.2.2 r)⟩
  | tell request next ih => exact ⟨h.1, fun fault => ih _ (h.2.1 fault), fun r => ih _ (h.2.2 r)⟩
  | note line next ih => exact ih h

theorem throughout_map {g : β → α} {session : Session β}
    (h : session.Throughout (fun begun result => P begun (result.map (Except.map g))) begun) :
    (session.map g).Throughout P begun := by
  induction session generalizing begun with
  | done result => cases result <;> exact h
  | ask request next ih => exact ⟨h.1, fun fault => ih _ (h.2.1 fault), fun r => ih _ (h.2.2 r)⟩
  | tell request next ih => exact ⟨h.1, fun fault => ih _ (h.2.1 fault), fun r => ih _ (h.2.2 r)⟩
  | note line next ih => exact ih h

theorem throughout_settle {q : Query α} {response : Bytes} (now : P begun none)
    (ended : P begun (some (q.accept response))) : (settle q response).Throughout P begun := by
  rw [settle]
  split
  · rename_i hecho
    exact ⟨now, hecho ▸ ended⟩
  · exact ⟨now, ended⟩

/-- The session of a query ends with a fault, or begins one exchange and ends with its fault or with
the reading of the response. -/
theorem throughout_ofQuery {e : Except RequestFault (Query α)} (now : P begun none)
    (unbegun : ∀ fault, P begun (some (.error fault)))
    (asked : ∀ q, e = .ok q → P (begun ++ [q.request]) none ∧
      ∀ result : Except RequestFault Bytes,
        P (begun ++ [q.request]) (some (result.bind q.accept))) :
    (ofQuery e).Throughout P begun := by
  cases e with
  | error fault => exact ⟨now, unbegun fault⟩
  | ok q =>
    obtain ⟨after, ended⟩ := asked q rfl
    refine ⟨now, fun fault => ⟨now, unbegun fault⟩, fun result => ?_⟩
    cases result with
    | error fault => exact ⟨after, ended (.error fault)⟩
    | ok response => exact throughout_settle after (ended (.ok response))

/-- A session whose requests are all such begins no others. -/
theorem Sends.throughout {Q : Bytes → Prop} {session : Session α} (h : session.Sends Q)
    (before : ∀ request ∈ begun, Q request) :
    session.Throughout (fun begun _ => ∀ request ∈ begun, Q request) begun := by
  have also {request : Bytes} (hrequest : Q request) {begun : List Bytes}
      (before : ∀ request ∈ begun, Q request) : ∀ r ∈ begun ++ [request], Q r := by
    intro r hr
    rcases List.mem_append.1 hr with hr | hr
    · exact before r hr
    · exact List.mem_singleton.1 hr ▸ hrequest
  induction session generalizing begun with
  | done result => exact ⟨before, before⟩
  | ask request next ih =>
    exact ⟨before, fun fault => ih _ (h.2 _) before, fun r => ih _ (h.2 r) (also h.1 before)⟩
  | tell request next ih =>
    exact ⟨before, fun fault => ih _ (h.2 _) before, fun r => ih _ (h.2 r) (also h.1 before)⟩
  | note line next ih => exact ih h before

end BusMaster.Session

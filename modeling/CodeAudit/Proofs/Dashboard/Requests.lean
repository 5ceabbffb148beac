import CodeAudit.Dashboard.Api
import CodeAudit.Proofs.Outcome

/-!
# Requests without the key

A dashboard keeps its store from everyone without its key. A request without it leaves the store as it is and is
answered without a look at it (`answer_of_not_hasKey`), since nothing that is let in needs the store
(`demand_of_not_hasKey`). So such requests can be taken out of a session: the store and all other answers stay the same
(`serve_filter`).
-/

namespace CodeAudit.Api

open Proofs

/-- The answers to requests that come one after the other, each with the stamp for the scan it may make, and the store
after them. -/
def serve (key : String) (store : Store) : List (Store.Stamp × Request) → List (Except Fault Response) × Store
  | [] => ([], store)
  | (stamp, r) :: rest =>
    let first := answer key stamp store r
    let later := serve key first.2 rest
    (first.1 :: later.1, later.2)

/-- The answers to the requests of a session that have the key. -/
def answersWithKey (key : String) (store : Store) (session : List (Store.Stamp × Request)) :
    List (Except Fault Response) :=
  ((session.zip (serve key store session).1).filter fun entry => hasKey key entry.1.2.headers).map (·.2)

/-! ## One request -/

section Request

variable {key : String} {r : Request} (stamp : Store.Stamp)

lemma hasKey_eq_false (hkey : key ≠ "") (hheader : header? r.headers "x-api-key" ≠ some key) :
    hasKey key r.headers = false := by
  unfold hasKey
  rw [Bool.or_eq_false_iff]
  constructor
  · rw [String.isEmpty_eq_false_iff]
    exact hkey
  · exact beq_eq_false_iff_ne.mpr hheader

lemma demand_of_needsKey (h : hasKey key r.headers = false) (hoperation : r.operation = .ok operation)
    (hneeds : operation.needsKey) : r.demand key = (readBody operation r).bind fun _ => stop noKey := by
  unfold Request.demand
  rw [hoperation, ok_bind]
  cases readBody operation r with
  | error halt => rfl
  | ok body =>
    rw [ok_bind, hneeds, h]
    rfl

/-- Without the key nothing is let in but the question whether the dashboard is well. -/
lemma demand_of_not_hasKey (h : hasKey key r.headers = false) (hdemand : r.demand key = .ok d) :
    d.operation = .health := by
  obtain ⟨operation, hoperation, hrest⟩ := of_bind hdemand
  cases operation with
  | health =>
    obtain ⟨body, -, hrest⟩ := of_bind hrest
    cases hrest
    rfl
  | create | list | get id | findings id | delete id | statistics =>
    rw [demand_of_needsKey h hoperation rfl] at hdemand
    obtain ⟨body, -, hstop⟩ := of_bind hdemand
    cases hstop

/-- **One request without the key.** It is answered alike on every store, and leaves it as it is. -/
lemma answer_of_not_hasKey (h : hasKey key r.headers = false) :
    ∃ response, ∀ store, answer key stamp store r = (response, store) := by
  unfold answer
  cases hdemand : r.demand key with
  | error halt => exact ⟨_, fun store => rfl⟩
  | ok d =>
    have hhealth := demand_of_not_hasKey h hdemand
    refine ⟨.ok (.answer 200 (.obj [("status", .str "ok")])), fun store => ?_⟩
    have hperform : perform store stamp d = (.ok (.answer 200 (.obj [("status", .str "ok")])), store) := by
      unfold perform
      rw [hhealth]
    dsimp only
    rw [hperform]
    rfl

/-- An operation that needs the key is refused, or answered with what is wrong with the body of a new scan. -/
lemma answer_of_needsKey (h : hasKey key r.headers = false)
    (hoperation : r.operation = .ok operation) (hneeds : operation.needsKey) (store : Store) :
    (answer key stamp store r).1 = .ok noKey ∨
      operation = .create ∧ ∃ halt, readBody .create r = .error halt ∧
        (answer key stamp store r).1 = concluded (.error halt) := by
  unfold answer
  rw [demand_of_needsKey h hoperation hneeds]
  cases hbody : readBody operation r with
  | ok body => exact .inl rfl
  | error halt =>
    cases operation with
    | create => exact .inr ⟨rfl, halt, hbody, rfl⟩
    | health | list | get id | findings id | delete id | statistics => cases hbody

end Request

/-! ## Sessions -/

variable (key : String) (store : Store) (headers : List (String × String))

section Session

variable (stamp : Store.Stamp) (r : Request) (rest : List (Store.Stamp × Request))

lemma serve_cons : serve key store ((stamp, r) :: rest) = ((answer key stamp store r).1 ::
      (serve key (answer key stamp store r).2 rest).1, (serve key (answer key stamp store r).2 rest).2) :=
  rfl

lemma answersWithKey_cons : answersWithKey key store ((stamp, r) :: rest) = if hasKey key r.headers then
      (answer key stamp store r).1 :: answersWithKey key (answer key stamp store r).2 rest
    else answersWithKey key (answer key stamp store r).2 rest := by
  unfold answersWithKey
  rw [serve_cons]
  generalize answer key stamp store r = first
  rw [List.zip_cons_cons, List.filter_cons]
  cases hasKey key r.headers <;> rfl

/-- **A session without the requests that lack the key** has the same store and the same answers to all others. -/
lemma serve_filter (session : List (Store.Stamp × Request)) :
    serve key store (session.filter fun entry => hasKey key entry.2.headers) =
      (answersWithKey key store session, (serve key store session).2) := by
  induction session generalizing store with
  | nil => rfl
  | cons entry rest ih =>
    obtain ⟨stamp, r⟩ := entry
    rw [answersWithKey_cons, serve_cons, List.filter_cons]
    cases h : hasKey key r.headers with
    | true => rw [if_pos rfl, if_pos rfl, serve_cons, ih]
    | false =>
      -- the request changes nothing, so the rest of the session starts where this one does
      obtain ⟨response, hanswer⟩ := answer_of_not_hasKey stamp h
      rw [if_neg Bool.false_ne_true, if_neg Bool.false_ne_true, hanswer, ih]

end Session

/-- **Without the key the store is neither changed nor seen.** A request with no key, or another one, leaves every
store as it is and has the same answer on any two; where it asks for scans, findings or statistics that is the refusal,
or says what is wrong with the body. In a session such requests make no difference to the others. -/
theorem store_kept_from_strangers {key : String} (hkey : key ≠ "") :
    (∀ stamp (r : Request), header? r.headers "x-api-key" ≠ some key →
      (∀ store, (answer key stamp store r).2 = store) ∧
      (∀ store other, (answer key stamp store r).1 = (answer key stamp other r).1) ∧
      ∀ operation, r.operation = .ok operation → operation.needsKey = true → ∀ store,
        (answer key stamp store r).1 = .ok noKey ∨ operation = .create ∧ ∃ halt,
          readBody .create r = .error halt ∧ (answer key stamp store r).1 = concluded (.error halt)) ∧
      ∀ store session, serve key store (session.filter fun entry => header? entry.2.headers "x-api-key" == some key) =
        (answersWithKey key store session, (serve key store session).2) := by
  constructor
  · intro stamp r hheader
    have h := hasKey_eq_false hkey hheader
    obtain ⟨response, hanswer⟩ := answer_of_not_hasKey stamp h
    refine ⟨fun store => by rw [hanswer], fun store other => by rw [hanswer, hanswer], ?_⟩
    intro operation hoperation hneeds store
    exact answer_of_needsKey stamp h hoperation hneeds store
  · intro store session
    have hempty : key.isEmpty = false := String.isEmpty_eq_false_iff.mpr hkey
    have hhas : (fun entry : Store.Stamp × Request => header? entry.2.headers "x-api-key" == some key) =
        fun entry => hasKey key entry.2.headers := by
      funext entry
      unfold hasKey
      rw [hempty, Bool.false_or]
    rw [hhas]
    exact serve_filter key store session

def noon : Store.Stamp := { id := "7f3a", created := "2024-01-02T12:00:00+00:00" }

def oneScan : Store := (Store.create {} noon { path := .str "p", findings := .list [] }).2

def scanRequest : Request :=
  { method := "GET", target := "/api/scans/7f3a", headers }

lemma operation_scanRequest : (scanRequest headers).operation = .ok (.get "7f3a") := by
  have hplace : Place.ofPath? (unescaped (splitTarget (scanRequest headers).target).1) = some (.scan "7f3a") := by
    change Place.ofPath? (unescaped (splitTarget "/api/scans/7f3a").1) = _
    decide +kernel
  unfold Request.operation
  dsimp only
  rw [hplace]
  rfl

def isShown : Except Fault Response → Bool
  | .ok (.answer status _) => status == 200
  | _ => false

/-- Without the key, a scan that is there is refused as one that is not; with it they are told apart. -/
theorem scanRequest_refused_alike :
    (∀ headers ∈ [[], [("X-API-Key", "guess")]], (answer "secret" noon oneScan (scanRequest headers)).1 = .ok noKey ∧
        (answer "secret" noon oneScan (scanRequest headers)).1 = (answer "secret" noon {} (scanRequest headers)).1) ∧
      isShown (answer "secret" noon oneScan (scanRequest [("X-API-Key", "secret")])).1 = true ∧
        isShown (answer "secret" noon {} (scanRequest [("X-API-Key", "secret")])).1 = false := by
  refine ⟨fun headers hheaders => ?_, by decide +kernel, by decide +kernel⟩
  have hstranger : header? (scanRequest headers).headers "x-api-key" ≠ some "secret" := by
    revert headers
    decide +kernel
  obtain ⟨-, halike, hrefused⟩ := (store_kept_from_strangers (by decide)).1 noon (scanRequest headers) hstranger
  refine ⟨(hrefused _ (operation_scanRequest headers) rfl oneScan).resolve_right fun hcreate => ?_, halike oneScan {}⟩
  cases hcreate.1

end CodeAudit.Api

import CodeAudit.Dependencies.Lookup
import CodeAudit.Proofs.Dependencies.Cache
import CodeAudit.Proofs.Steps

/-!
# Attempts and waiting times

A request is sent again after a reply that is late, missing or from a busy server. How many attempts are made, what is
sent, used up and waited, and the result depend on the outcomes alone (`Makes`, `exists_makes`). Between two attempts
the program waits, each time twice as long; a busy server is waited for even after the last one (`disciplined_iff`).
-/

namespace CodeAudit

open Proofs List Value Bool

/-! ## Replies -/

/-- What happens at an attempt; after the given replies the server cannot be reached. -/
def Network.outcome (n : Network) (i : Nat) : Reply := n.replies.getD i .unreachable

lemma Network.send_spec (n : Network) (request : Request) :
    (n.send request).2.replies = n.replies.tail ∧ (∀ i, (n.send request).2.outcome i = n.outcome (i + 1)) ∧
      (n.send request).2.requests = n.requests ++ [request] ∧ (n.send request).2.sleeps = n.sleeps := by
  unfold send outcome
  cases n.replies <;> simp

/-- Whether a fault says that a text is no document. -/
def Fault.isOfText : Fault → Bool
  | .meaningless | .badJson _ => true
  | _ => false

def Body.entries (body : Body) : Except Fault Record := do
  return ((ofEntries (← body.read >>= toEntries)).namedFields).getD []

namespace Reply

def isBusy : Reply → Bool
  | .answer status _ => status == 429 || 500 ≤ status
  | _ => false

def isRetried : Reply → Bool
  | .timeout | .unreachable => true
  | .failed => false
  | .answer status _ => status == 429 || 500 ≤ status

/-- What a reply that counts is taken for: a record, nothing, or a fault. -/
def received : Reply → Except Fault (Option Record)
  | .timeout | .unreachable => .ok none
  | .failed => .error .requestFailed
  | .answer status body =>
    if 400 ≤ status then .ok none
    else match body.entries with
      | .ok fields => .ok (some fields)
      | .error fault => if fault.isOfText then .ok none else .error fault

/-- A reply that came too late, none at all, or a record with a status. -/
inductive IsOrderly : Reply → Prop where
  | timeout : IsOrderly .timeout
  | unreachable : IsOrderly .unreachable
  | answer {status : Int} {body : Body} {fields : Record} (h : body.read = .ok (.obj fields)) :
      IsOrderly (.answer status body)

/-- The record of an answer that is no refusal. -/
def record? : Reply → Option Record
  | .answer status body =>
    if status < 400 then
      match body.read with
      | .ok (.obj fields) => some fields
      | _ => none
    else none
  | _ => none

end Reply

variable {reply : Reply}

lemma ofEntries_fields (fields : Record) :
    ofEntries (fields.map fun (name, value) => (.str name, value)) = .obj fields := by
  induction fields with
  | nil => rfl
  | cons field fields ih =>
    unfold ofEntries at ih ⊢
    split at ih
    · next hnamed =>
      cases ih
      simp [hnamed]
    · cases ih

lemma namedFields_ofEntries (entries : List (Value × Value)) :
    ∃ fields, (ofEntries entries).namedFields = some fields := by
  unfold ofEntries
  split <;> exact ⟨_, rfl⟩

lemma Reply.IsOrderly.received_eq (h : reply.IsOrderly) : reply.received = .ok reply.record? := by
  cases h with
  | timeout | unreachable => rfl
  | @answer status body fields h =>
    have hentries : body.entries = .ok fields := by
      unfold Body.entries
      rw [h, ok_bind]
      dsimp only [toEntries]
      rw [ok_bind, ofEntries_fields]
      rfl
    unfold received record?
    dsimp only
    rw [h, hentries]
    by_cases hstatus : 400 ≤ status
    · rw [if_pos hstatus, if_neg (Int.not_lt.mpr hstatus)]
    · rw [if_neg hstatus, if_pos (Int.not_le.mp hstatus)]

lemma Reply.record?_of_isRetried (h : reply.isRetried) : reply.record? = none := by
  cases reply with
  | answer status body =>
    have hrefused : ¬ status < 400 := by
      simp [isRetried] at h
      omega
    exact if_neg hrefused
  | _ => rfl

namespace Lookup

lemma judge_of_isRetried (h : reply.isRetried) : judge reply = .again reply.isBusy := by
  cases reply with
  | answer status body => exact (if_pos h).trans (congrArg Verdict.again h.symm)
  | timeout | unreachable => rfl
  | failed => cases h

lemma judge_of_not_isRetried (h : reply.isRetried = false) :
    judge reply = match reply.received with
      | .ok received => .stop received
      | .error fault => .abort fault := by
  cases reply with
  | answer status body =>
    have hstatus : ¬ (status == 429 || 500 ≤ status) := eq_false_iff.mp h
    unfold judge Reply.received
    dsimp only
    rw [if_neg hstatus]
    by_cases hrefused : 400 ≤ status
    · rw [if_pos hrefused, if_pos hrefused]
    · rw [if_neg hrefused, if_neg hrefused]
      unfold Body.entries
      cases body.read >>= toEntries with
      | ok entries =>
        obtain ⟨fields, hfields⟩ := namedFields_ofEntries entries
        dsimp only
        rw [ok_bind, pure_eq_ok, hfields]
        rfl
      | error fault => cases fault <;> rfl
  | timeout | unreachable => cases h
  | failed => rfl

/-! ## Attempts -/

/-- One attempt: the reply counts, or the request is sent again, mostly after a wait. -/
lemma sendFrom_succ (request : Request) (left attempt : Nat) (n : Network) :
    sendFrom request (left + 1) attempt n = if (n.outcome 0).isRetried then
        sendFrom request left (attempt + 1) (if (n.outcome 0).isBusy || left != 0
          then (n.send request).2.sleep (backoff attempt) else (n.send request).2)
      else ((n.outcome 0).received, (n.send request).2) := by
  have hreply : (n.send request).1 = n.outcome 0 := by
    unfold Network.send Network.outcome
    cases n.replies <;> rfl
  rw [sendFrom]
  dsimp only
  rw [hreply]
  by_cases hretried : (n.outcome 0).isRetried
  · rw [judge_of_isRetried hretried, if_pos hretried]
  · rw [judge_of_not_isRetried (of_not_eq_true hretried), if_neg hretried]
    cases (n.outcome 0).received <;> rfl

/-- How many attempts are made: another one after each whose outcome gives hope, up to a limit. -/
structure Makes (n : Network) (limit made : Nat) : Prop where
  positive : 0 < made
  le_limit : made ≤ limit
  again : ∀ i, i + 1 < made → (n.outcome i).isRetried
  ends : made < limit → (n.outcome (made - 1)).isRetried = false

/-- How often the program waits: between attempts, and after the last possible one for a busy server. -/
def waits (n : Network) (limit made : Nat) : Nat :=
  made - 1 + (decide (made = limit) && (n.outcome (made - 1)).isBusy).toNat

/-- **What sending a request does**, by the outcomes of the attempts. -/
lemma exists_makes (request : Request) (hleft : 0 < left) (attempt : Nat) (n : Network) :
    ∃ made, Makes n left made ∧ (sendFrom request left attempt n).1 =
        (if (n.outcome (made - 1)).isRetried then .ok none else (n.outcome (made - 1)).received) ∧
      (sendFrom request left attempt n).2.requests = n.requests ++ replicate made request ∧
      (sendFrom request left attempt n).2.replies = n.replies.drop made ∧
      (sendFrom request left attempt n).2.sleeps =
        n.sleeps ++ (range (waits n left made)).map fun k => backoff (attempt + k) := by
  induction left generalizing attempt n with
  | zero => cases hleft
  | succ left ih =>
    obtain ⟨hreplies, houtcome, hrequests, hsleeps⟩ := n.send_spec request
    have hdropped : (n.send request).2.replies = n.replies.drop 1 := hreplies.trans drop_one.symm
    rw [sendFrom_succ]
    by_cases hretried : (n.outcome 0).isRetried
    · rw [if_pos hretried]
      by_cases hlast : left = 0
      · subst hlast
        refine ⟨1, ⟨Nat.one_pos, Nat.le_refl 1, fun i hi => by omega, fun h => by omega⟩, ?_, ?_, ?_, ?_⟩
        · rw [if_pos hretried]
          rfl
        · dsimp only [sendFrom]
          split <;> exact hrequests
        · dsimp only [sendFrom]
          split <;> exact hdropped
        · have hcount : waits n 1 1 = (n.outcome 0).isBusy.toNat := by simp [waits]
          dsimp only [sendFrom]
          rw [hcount]
          cases (n.outcome 0).isBusy <;> simp [Network.sleep, hsleeps]
      · have hwaits : ((n.outcome 0).isBusy || left != 0) := by simp [hlast]
        rw [if_pos hwaits]
        -- the attempts that follow start with the second outcome
        generalize hnext : (n.send request).2.sleep (backoff attempt) = next
        have houtcomes : ∀ i, next.outcome i = n.outcome (i + 1) := hnext ▸ houtcome
        have hwaited : next.sleeps = n.sleeps ++ [backoff attempt] := by rw [← hnext, Network.sleep, hsleeps]
        obtain ⟨made, hmakes, hresult, hsent, hused, hslept⟩ := ih (Nat.pos_of_ne_zero hlast) (attempt + 1) next
        have hmade : made - 1 + 1 = made := Nat.sub_add_cancel hmakes.positive
        rw [houtcomes, hmade] at hresult
        refine ⟨made + 1, ⟨Nat.succ_pos made, Nat.succ_le_succ hmakes.le_limit, ?_, ?_⟩, hresult, ?_, ?_, ?_⟩
        · intro i hi
          cases i with
          | zero => exact hretried
          | succ i =>
            rw [← houtcomes]
            exact hmakes.again i (by omega)
        · intro hmore
          have hends := hmakes.ends (by omega)
          rwa [houtcomes, hmade] at hends
        · rw [hsent, ← hnext, replicate_succ, ← singleton_append, ← append_assoc]
          exact congrArg (· ++ replicate made request) hrequests
        · rw [hused, ← hnext, Nat.add_comm, ← drop_drop]
          exact congrArg (drop made) hdropped
        · have hcount : waits n (left + 1) (made + 1) = waits next left made + 1 := by
            unfold waits
            rw [houtcomes, hmade]
            simp only [Nat.add_right_cancel_iff, Nat.add_sub_cancel]
            omega
          rw [hslept, hwaited, hcount, range_succ_eq_map, map_cons, map_map, append_assoc, singleton_append]
          congr 3
          funext k
          exact congrArg backoff (by omega)
    · rw [if_neg hretried]
      refine ⟨1, ⟨Nat.one_pos, by omega, fun i hi => by omega, fun _ => of_not_eq_true hretried⟩, ?_, hrequests,
        hdropped, ?_⟩
      · rw [if_neg hretried]
      · have hidle : (n.outcome 0).isBusy = false := by
          cases hreply : n.outcome 0 with
          | answer status body =>
            rw [hreply] at hretried
            exact of_not_eq_true hretried
          | _ => rfl
        simp [waits, hidle, hsleeps]

/-- **The discipline of requests**, to a server whose replies are late, missing or records. At most three requests are
sent, up to the first reply that gives no hope, and its record is the result. The waits lie between attempts and double
each time, except that a third attempt at a busy server is followed by one more. -/
theorem disciplined_iff (request : Request) {n : Network} (h : ∀ reply ∈ n.replies, reply.IsOrderly) :
    ∃ made, Makes n 3 made ∧ (sendFrom request maxAttempts 0 n).1 = .ok (n.outcome (made - 1)).record? ∧
      (sendFrom request maxAttempts 0 n).2.requests = n.requests ++ replicate made request ∧
      (sendFrom request maxAttempts 0 n).2.sleeps =
        n.sleeps ++ (range (waits n 3 made)).map (fun k => Float.ofNat (2 ^ k)) ∧
      ((sendFrom request maxAttempts 0 n).2.sleeps = n.sleeps ++ (range (made - 1)).map (fun k => Float.ofNat (2 ^ k)) ↔
        ¬ (made = 3 ∧ (n.outcome 2).isBusy = true)) := by
  have horderly : ∀ i, (n.outcome i).IsOrderly := by
    intro i
    unfold Network.outcome
    rw [getD_eq_getElem?_getD]
    cases hreply : n.replies[i]? with
    | none => exact .unreachable
    | some reply => exact h reply (mem_of_getElem? hreply)
  obtain ⟨made, hmakes, hresult, hrequests, -, hsleeps⟩ := exists_makes request (Nat.succ_pos 2) 0 n
  simp only [zero_add] at hsleeps
  refine ⟨made, hmakes, hresult.trans ?_, hrequests, hsleeps, ?_⟩
  · split
    · next hretried => rw [Reply.record?_of_isRetried hretried]
    · exact (horderly _).received_eq
  · have hcount : waits n 3 made = made - 1 ↔ ¬ (made = 3 ∧ (n.outcome 2).isBusy = true) := by
      by_cases hlast : made = 3
      · subst hlast
        cases hbusy : (n.outcome 2).isBusy <;> simp [waits, hbusy]
      · simp [waits, hlast]
    rw [← hcount]
    constructor
    · intro hsame
      have hwaits := append_cancel_left (hsleeps.symm.trans hsame)
      simpa using congrArg length hwaits
    · intro hsame
      rw [← hsame]
      exact hsleeps

/-- A server that is busy all the time. -/
def busyServer : Network := { replies := replicate 3 (.answer 429 (.document (.obj []))) }

/-- It is waited for three times, the last time for nothing. -/
theorem disciplined_busyServer : (∀ reply ∈ busyServer.replies, reply.IsOrderly) ∧
    (sendFrom (batchRequest []) maxAttempts 0 busyServer).2.requests.length = 3 ∧
    (sendFrom (batchRequest []) maxAttempts 0 busyServer).2.sleeps.length = 3 := by
  have horderly : ∀ reply ∈ busyServer.replies, reply.IsOrderly := fun reply hreply => by
    rw [eq_of_mem_replicate hreply]
    exact .answer rfl
  obtain ⟨made, hmakes, -, hrequests, hsleeps, -⟩ := disciplined_iff (batchRequest []) horderly
  have hmade : made = 3 := by
    have hpositive := hmakes.positive
    have hle := hmakes.le_limit
    by_contra hless
    rcases (by omega : made = 1 ∨ made = 2) with rfl | rfl <;> cases hmakes.ends (by decide)
  subst hmade
  exact ⟨horderly, by rw [hrequests]; rfl, by rw [hsleeps]; rfl⟩

end Lookup

/-!
## What look-ups leave behind

What a look-up has done stays even where it fails half way. `Network.exchanges` are the requests between two states
with their replies. `Progress` says that the cache differs in stored answers only, and what each rests on. Every
look-up makes progress that rests on replies (`progress_package`, `progress_batch`), however it ends.
-/

open Proofs.Steps VulnCache Nat

variable {a b c : Network}

/-! ## Requests and replies -/

namespace Network

/-- The network after some more requests, each of which has used up a reply. -/
def Follows (before after : Network) : Prop :=
  ∃ sent, after.requests = before.requests ++ sent ∧ after.replies = before.replies.drop sent.length

/-- The requests sent between two states of the network that were replied to, with the replies. -/
def exchanges (before after : Network) : List (Request × Reply) :=
  (after.requests.drop before.requests.length).zip before.replies

lemma Follows.refl (n : Network) : n.Follows n := ⟨[], (append_nil _).symm, rfl⟩

lemma Follows.trans (hab : a.Follows b) (hbc : b.Follows c) : a.Follows c := by
  obtain ⟨first, hfirst, hused⟩ := hab
  obtain ⟨second, hsecond, hrest⟩ := hbc
  refine ⟨first ++ second, ?_, ?_⟩
  · rw [hsecond, hfirst, append_assoc]
  · rw [hrest, hused, drop_drop, length_append]

variable {reply : Reply} {said : Request × Reply}

lemma mem_exchanges_iff (h : b.requests = a.requests ++ sent) :
    (request, reply) ∈ a.exchanges b ↔ ∃ i : Nat, sent[i]? = some request ∧ a.replies[i]? = some reply := by
  unfold exchanges
  rw [h, drop_left, mem_iff_getElem?]
  simp only [getElem?_zip_eq_some]

lemma Follows.exchanges_left (hab : a.Follows b) (hbc : b.Follows c)
    (h : said ∈ a.exchanges b) : said ∈ a.exchanges c := by
  obtain ⟨first, hfirst, -⟩ := hab
  obtain ⟨second, hsecond, -⟩ := hbc
  obtain ⟨i, hrequest, hreply⟩ := (mem_exchanges_iff hfirst).mp h
  have hall : c.requests = a.requests ++ (first ++ second) := by rw [hsecond, hfirst, append_assoc]
  refine (mem_exchanges_iff hall).mpr ⟨i, ?_, hreply⟩
  rw [List.getElem?_append_left (List.getElem?_eq_some_iff.mp hrequest).1]
  exact hrequest

lemma Follows.exchanges_right (hab : a.Follows b) (hbc : b.Follows c)
    (h : said ∈ b.exchanges c) : said ∈ a.exchanges c := by
  obtain ⟨first, hfirst, hused⟩ := hab
  obtain ⟨second, hsecond, -⟩ := hbc
  obtain ⟨i, hrequest, hreply⟩ := (mem_exchanges_iff hsecond).mp h
  have hall : c.requests = a.requests ++ (first ++ second) := by rw [hsecond, hfirst, append_assoc]
  refine (mem_exchanges_iff hall).mpr ⟨first.length + i, ?_, ?_⟩
  · rw [getElem?_append_right (Nat.le_add_right _ _), Nat.add_sub_cancel_left]
    exact hrequest
  · rw [hused, getElem?_drop] at hreply
    exact hreply

end Network

namespace Lookup

variable {request : Request} {answer : Record}

variable {α β : Type} {p : Package} {vulns answers : Value} {s t : LookupState} {asked : List Package}

lemma follows_sendFrom (request : Request) (left attempt : Nat) (n : Network) :
    n.Follows (sendFrom request left attempt n).2 := by
  cases left with
  | zero => exact .refl n
  | succ left =>
    obtain ⟨made, -, -, hrequests, hreplies, -⟩ := exists_makes request left.succ_pos attempt n
    exact ⟨replicate made request, hrequests, by rw [hreplies, length_replicate]⟩

lemma exists_reply (h : (sendFrom request left attempt n).1 = .ok (some answer)) :
    ∃ reply, (request, reply) ∈ n.exchanges (sendFrom request left attempt n).2 ∧
      judge reply = .stop (some answer) := by
  cases left with
  | zero => cases h
  | succ left =>
    obtain ⟨made, hmakes, hresult, hrequests, -⟩ := exists_makes request left.succ_pos attempt n
    rw [hresult] at h
    split at h
    · cases h
    · next hcounts =>
      have hjudge := judge_of_not_isRetried (of_not_eq_true hcounts)
      rw [h] at hjudge
      refine ⟨_, (Network.mem_exchanges_iff hrequests).mpr ⟨made - 1, ?_, ?_⟩, hjudge⟩
      · rw [getElem?_replicate, if_pos (sub_one_lt_of_lt hmakes.positive)]
      · -- without a reply the server could not be reached, which is a reason to try again
        unfold Network.outcome at hcounts ⊢
        rw [getD_eq_getElem?_getD] at hcounts ⊢
        cases hreply : n.replies[made - 1]? with
        | none =>
          rw [hreply] at hcounts
          exact absurd rfl hcounts
        | some reply => rfl

/-! ## Steps of a look-up -/

lemma on_ofExcept (result : Except Fault α) (s : LookupState) : on (ofExcept result) s = (result, s) := by
  cases result <;> rfl

lemma on_ok_bind (a : α) (rest : α → Lookup β) (s : LookupState) :
    on (ofExcept (.ok a) >>= rest) s = on (rest a) s := rfl

lemma on_cached (p : Package) (s : LookupState) : on (cached p) s = (s.cache.get s.clock p, s) := by
  unfold cached
  rw [on_bind, on_get]
  exact on_ofExcept _ s

lemma on_send (request : Request) (s : LookupState) :
    on (send request) s = ((sendFrom request maxAttempts 0 s.network).1,
      { s with network := (sendFrom request maxAttempts 0 s.network).2 }) := by
  unfold send
  rw [on_bind_of_ok (on_get s)]
  rcases sendFrom request maxAttempts 0 s.network with ⟨result, network⟩
  rw [on_bind_of_ok (on_set s _), on_ofExcept]

lemma exists_reply_of_send (h : (on (send request) s).1 = .ok (some answer)) :
    ∃ reply, (request, reply) ∈ s.network.exchanges (on (send request) s).2.network ∧
      judge reply = .stop (some answer) := by
  rw [on_send] at h ⊢
  exact exists_reply h

lemma on_store (p : Package) (vulns : Value) (s : LookupState) :
    on (store p vulns) s = match s.cache.put s.clock p vulns with
      | .ok cache => (.ok (), { s with cache })
      | .error fault => (.error fault, s) := by
  unfold store
  rw [on_bind, on_get]
  dsimp only
  rw [on_bind, on_ofExcept]
  cases s.cache.put s.clock p vulns <;> rfl

lemma on_store_of_ok
    (h : s.cache.put s.clock p vulns = .ok cache) : on (store p vulns) s = (.ok (), { s with cache }) := by
  rw [on_store, h]

lemma on_store_eq_ok (h : on (store p vulns) s = (.ok u, t)) :
    ∃ cache, s.cache.put s.clock p vulns = .ok cache ∧ t = { s with cache } := by
  rw [on_store] at h
  cases hput : s.cache.put s.clock p vulns with
  | error fault =>
    rw [hput] at h
    cases h
  | ok cache =>
    rw [hput] at h
    exact ⟨cache, rfl, (congrArg Prod.snd h).symm⟩

lemma network_store (p : Package) (vulns : Value) (s : LookupState) : (on (store p vulns) s).2.network = s.network := by
  rw [on_store]
  cases s.cache.put s.clock p vulns <;> rfl

/-! ## Progress -/

/-- A state from which another is reached by sending requests and by storing answers of which `P` holds. -/
structure Progress (P : Package → List Value → Prop) (before after : LookupState) : Prop where
  network : before.network.Follows after.network
  clock : after.clock = before.clock
  ttl : after.cache.ttl = before.cache.ttl
  entries : ∀ name, after.cache.entry? name = before.cache.entry? name ∨ ∃ p vulns, P p vulns ∧ p.fileName = .ok name ∧
      after.cache.entry? name = some (.file (.text (entryText before.clock vulns)))

section Progress

variable {P Q : Package → List Value → Prop} {s t u : LookupState}

lemma Progress.refl (s : LookupState) : Progress P s s := ⟨.refl _, rfl, rfl, fun _ => .inl rfl⟩

lemma Progress.trans (hst : Progress P s t) (htu : Progress P t u) : Progress P s u where
  network := hst.network.trans htu.network
  clock := htu.clock.trans hst.clock
  ttl := htu.ttl.trans hst.ttl
  entries := by
    intro name
    rcases htu.entries name with hsame | ⟨p, vulns, hP, hname, hentry⟩
    · rw [hsame]
      exact hst.entries name
    · rw [hst.clock] at hentry
      exact .inr ⟨p, vulns, hP, hname, hentry⟩

lemma Progress.mono (hPQ : ∀ p vulns, P p vulns → Q p vulns) (h : Progress P s t) : Progress Q s t where
  network := h.network
  clock := h.clock
  ttl := h.ttl
  entries := by
    intro name
    rcases h.entries name with hsame | ⟨p, vulns, hP, hname, hentry⟩
    · exact .inl hsame
    · exact .inr ⟨p, vulns, hPQ p vulns hP, hname, hentry⟩

lemma Progress.isLasting (h : Progress P s t) (hlasting : s.cache.IsLasting) : t.cache.IsLasting := by
  unfold IsLasting
  rw [h.ttl]
  exact hlasting

lemma progress_send (request : Request) (s : LookupState) : Progress P s (on (send request) s).2 := by
  rw [on_send]
  exact ⟨follows_sendFrom _ _ _ _, rfl, rfl, fun _ => .inl rfl⟩

lemma progress_store {p : Package} {vulns : List Value} (h : P p vulns) (s : LookupState) :
    Progress P s (on (store p (.list vulns)) s).2 := by
  rw [on_store]
  cases hput : s.cache.put s.clock p (.list vulns) with
  | error fault => exact .refl s
  | ok cache =>
    obtain ⟨name, hname, ⟨-, rfl⟩ | ⟨hwritable, rfl⟩⟩ := put_cases hput
    · exact .refl s
    · refine ⟨.refl _, rfl, rfl, ?_⟩
      intro other
      by_cases hother : other = name
      · rw [hother]
        have hthere := isSome_of_isWritable hwritable
        exact .inr ⟨p, vulns, h, hname, entry?_setEntry_self hthere name _⟩
      · exact .inl (entry?_setEntry_of_ne hother _)

end Progress

/-! ## What was said about packages -/

/-- The server said so in reply to the request for this package alone. -/
def SaidAlone (said : List (Request × Reply)) (p : Package) (vulns : List Value) : Prop :=
  ∃ reply answer, (queryRequest p, reply) ∈ said ∧ judge reply = .stop (some answer) ∧
    Advisory.readAll (answer.getD "vulns" (.list [])) = .ok vulns

/-- The server replied so to the request for several packages, and that was taken as the answer. -/
def SaidTogether (s : LookupState) (said : List (Request × Reply)) (asked : List Package) (answer : Record) : Prop :=
  (∃ reply, (batchRequest asked, reply) ∈ said ∧ judge reply = .stop (some answer)) ∧
    (on (send (batchRequest asked)) s).1 = .ok (some answer)

/-- **What a look-up of one package stores was said of it.** -/
lemma progress_package (p : Package) (s : LookupState) :
    Progress (fun q vulns => q = p ∧ SaidAlone (s.network.exchanges (on (package p) s).2.network) q vulns) s
      (on (package p) s).2 := by
  unfold package
  rw [on_bind, on_cached]
  cases s.cache.get s.clock p with
  | error fault => exact .refl s
  | ok found =>
    cases found with
    | some vulns => exact .refl s
    | none =>
      -- from here on the cache changes only where an answer is received and can be read
      have hsent := fun P => @progress_send P (queryRequest p) s
      have hreply := fun answer => @exists_reply_of_send (queryRequest p) answer s
      dsimp only
      rw [on_bind]
      generalize on (send (queryRequest p)) s = sent at hsent hreply ⊢
      obtain ⟨received, t⟩ := sent
      cases received with
      | error fault => exact hsent _
      | ok received =>
        cases received with
        | none => exact hsent _
        | some answer =>
          dsimp only
          obtain ⟨reply, hsaid, hjudged⟩ := hreply answer rfl
          cases hvulns : Advisory.readAll (answer.getD "vulns" (.list [])) with
          | error fault => exact hsent _
          | ok vulns =>
            rw [on_ok_bind, on_bind_pure_snd fun _ => vulns]
            rw [← network_store p (.list vulns) t] at hsaid
            exact (hsent _).trans (progress_store ⟨rfl, reply, answer, hsaid, hjudged, hvulns⟩ t)

/-- **What look-ups of packages one by one store was said of them.** -/
lemma progress_askEach (asked : List Package) (s : LookupState) :
    Progress (fun q vulns => q ∈ asked ∧ SaidAlone (s.network.exchanges (on (askEach asked) s).2.network) q vulns) s
      (on (askEach asked) s).2 := by
  induction asked generalizing s with
  | nil => exact .refl s
  | cons p rest ih =>
    have hfirst := progress_package p s
    unfold askEach
    rw [on_bind]
    generalize on (package p) s = looked at hfirst ⊢
    obtain ⟨found, t⟩ := looked
    -- the first package may fail, and then nothing follows; so `u` is the network wherever the look-ups end
    have hhead : ∀ {u}, t.network.Follows u → Progress (fun q vulns => q ∈ p :: rest ∧
        SaidAlone (s.network.exchanges u) q vulns) s t := by
      intro u hu
      refine hfirst.mono ?_
      rintro q vulns ⟨rfl, reply, answer, hsaid, hanswer⟩
      exact ⟨mem_cons_self, reply, answer, hfirst.network.exchanges_left hu hsaid, hanswer⟩
    cases found with
    | error fault => exact hhead (.refl _)
    | ok vulns =>
      have hrest := ih t
      dsimp only
      rw [on_bind_pure_snd fun fresh => (p.label, list vulns) :: fresh]
      refine (hhead hrest.network).trans (hrest.mono ?_)
      rintro q vulns ⟨hq, reply, answer, hsaid, hanswer⟩
      exact ⟨mem_cons_of_mem _ hq, reply, answer, hfirst.network.exchanges_right hrest.network hsaid, hanswer⟩

lemma progress_storeBatch (answers : Value) (i : Nat) (asked : List Package) (s : LookupState) :
    Progress (fun q vulns => ∃ k : Nat, asked[k]? = some q ∧ answerAt answers (i + k) = .ok vulns) s
      (on (storeBatch answers i asked) s).2 ∧ (on (storeBatch answers i asked) s).2.network = s.network := by
  induction asked generalizing i s with
  | nil => exact ⟨.refl s, rfl⟩
  | cons p rest ih =>
    unfold storeBatch
    cases hvulns : answerAt answers i with
    | error fault => exact ⟨.refl s, rfl⟩
    | ok vulns =>
      rw [on_ok_bind, on_bind]
      have hfirst := @progress_store (fun q vulns => ∃ k : Nat, (p :: rest)[k]? = some q ∧
        answerAt answers (i + k) = .ok vulns) p vulns ⟨0, rfl, hvulns⟩ s
      have hnetwork := network_store p (.list vulns) s
      generalize on (store p (.list vulns)) s = stored at hfirst hnetwork ⊢
      obtain ⟨done, t⟩ := stored
      cases done with
      | error fault => exact ⟨hfirst, hnetwork⟩
      | ok done =>
        -- the rest is matched with the places after this one
        obtain ⟨hrest, hsame⟩ := ih (i + 1) t
        dsimp only
        rw [on_bind_pure_snd fun fresh => (p.label, list vulns) :: fresh]
        refine ⟨hfirst.trans (hrest.mono ?_), hsame.trans hnetwork⟩
        rintro q vulns ⟨k, hk, hanswer⟩
        exact ⟨k + 1, hk, by rw [← hanswer, add_right_comm, add_assoc]⟩

lemma network_of_storeBatch (h : on (storeBatch answers i asked) s = (result, t)) : t.network = s.network := by
  have hnetwork := (progress_storeBatch answers i asked s).2
  rw [h] at hnetwork
  exact hnetwork

/-- A batch that ends well has stored an answer in each file that can be written: that of the last package with this
file. -/
lemma entry?_of_storeBatch (h : on (storeBatch answers i asked) s = (.ok fresh, t)) (hk : asked[k]? = some p)
    (hname : p.fileName = .ok name) (hwritable : s.cache.isWritable name) :
    ∃ (j : Nat) (q : Package) (vulns : List Value), k ≤ j ∧ asked[j]? = some q ∧ q.fileName = .ok name ∧
      answerAt answers (i + j) = .ok vulns ∧
      t.cache.entry? name = some (.file (.text (entryText s.clock vulns))) := by
  induction asked generalizing i k s fresh with
  | nil => cases hk
  | cons first rest ih =>
    have hplace : ∀ j, i + (j + 1) = i + 1 + j := fun j => by omega
    unfold storeBatch at h
    obtain ⟨vulns, between, hread, h⟩ := of_on_bind h
    rw [on_ofExcept] at hread
    obtain ⟨hvulns, rfl⟩ := Prod.mk.inj hread
    obtain ⟨u, between, hstore, h⟩ := of_on_bind h
    obtain ⟨cache, hput, rfl⟩ := on_store_eq_ok hstore
    obtain ⟨others, after, hrest, h⟩ := of_on_bind h
    cases h
    obtain ⟨file, hfile, hcache⟩ := put_cases hput
    cases k with
    | zero =>
      cases hk
      rw [hname] at hfile
      cases hfile
      rcases hcache with ⟨hnot, -⟩ | ⟨-, rfl⟩
      · rw [hwritable] at hnot
        cases hnot
      · have hthere := isSome_of_isWritable hwritable
        obtain ⟨hlater, -⟩ := progress_storeBatch answers (i + 1) rest { s with cache := s.cache.setEntry name _ }
        rw [hrest] at hlater
        -- what is in the file in the end was put there now, or by a later package
        rcases hlater.entries name with hsame | ⟨q, later, ⟨j, hj, hanswer⟩, hq, hentry⟩
        · rw [entry?_setEntry_self hthere] at hsame
          exact ⟨0, p, vulns, le_refl 0, rfl, hname, hvulns, hsame⟩
        · exact ⟨j + 1, q, later, zero_le _, hj, hq, by rw [hplace, hanswer], hentry⟩
    | succ k =>
      have hstill : cache.isWritable name := by
        rcases hcache with ⟨-, rfl⟩ | ⟨-, rfl⟩
        · exact hwritable
        · exact isWritable_setEntry hwritable _
      obtain ⟨j, q, later, hle, hj, hq, hanswer, hentry⟩ := ih hrest hk hstill
      exact ⟨j + 1, q, later, succ_le_succ hle, hj, hq, by rw [hplace, hanswer], hentry⟩

/-! ## Batches -/

def uncached (s : LookupState) (queries : List Value) : List Package :=
  queries.filterMap fun q =>
    match readPackage q with
    | .ok p => match s.cache.get s.clock p with
      | .ok none => some p
      | _ => none
    | .error _ => none

def divided (s : LookupState) : List Value → Except Fault (Record × List Package)
  | [] => .ok ([], [])
  | q :: rest => do
    let p ← readPackage q
    let found ← s.cache.get s.clock p
    let parts ← divided s rest
    match found with
    | some vulns => .ok ((p.label, .list vulns) :: parts.1, parts.2)
    | none => .ok (parts.1, p :: parts.2)

lemma on_split (queries : List Value) (s : LookupState) : on (split queries) s = (divided s queries, s) := by
  induction queries with
  | nil => rfl
  | cons q rest ih =>
    unfold split divided
    rw [on_bind, on_ofExcept]
    cases readPackage q with
    | error fault => rfl
    | ok p =>
      dsimp only
      rw [on_bind, on_cached, ok_bind]
      cases s.cache.get s.clock p with
      | error fault => rfl
      | ok found =>
        dsimp only
        rw [on_bind, ih, ok_bind]
        cases divided s rest with
        | error fault => rfl
        | ok parts => cases found <;> rfl

lemma eq_uncached_of_divided (h : divided s queries = .ok parts) : parts.2 = uncached s queries := by
  induction queries generalizing parts with
  | nil =>
    cases h
    rfl
  | cons q rest ih =>
    obtain ⟨p, hp, h⟩ := of_bind h
    obtain ⟨found, hget, h⟩ := of_bind h
    obtain ⟨others, hrest, h⟩ := of_bind h
    have hothers := ih hrest
    unfold uncached at hothers ⊢
    rw [filterMap_cons, hp, ← hothers]
    dsimp only
    rw [hget]
    cases found <;> cases h <;> rfl

/-- What a batch may store of a package: what the server said of it alone, or what the reply says at its place. -/
def Vouched (s : LookupState) (said : List (Request × Reply)) (asked : List Package) (p : Package)
    (vulns : List Value) : Prop :=
  p ∈ asked ∧ SaidAlone said p vulns ∨ ∃ (answer : Record) (i : Nat), SaidTogether s said asked answer ∧
    asked[i]? = some p ∧ answerAt (answer.getD "results" (.list [])) i = .ok vulns

/-- **Whatever a batch stores rests on a reply of the server**, however the batch ends. -/
lemma progress_batch (queries : List Value) (s : LookupState) :
    Progress (Vouched s (s.network.exchanges (on (batch queries) s).2.network) (uncached s queries)) s
      (on (batch queries) s).2 := by
  unfold batch
  rw [on_bind, on_split]
  cases hdivided : divided s queries with
  | error fault => exact .refl s
  | ok parts =>
    rw [← eq_uncached_of_divided hdivided]
    obtain ⟨answered, asked⟩ := parts
    dsimp only
    split
    · exact .refl s
    · have hsent := fun P => @progress_send P (batchRequest asked) s
      have hreply := fun answer => @exists_reply_of_send (batchRequest asked) answer s
      rw [on_bind]
      rcases hsend : on (send (batchRequest asked)) s with ⟨received, t⟩
      rw [hsend] at hsent hreply
      cases received with
      | error fault => exact hsent _
      | ok received =>
        cases received with
        | none =>
          dsimp only
          rw [on_bind_pure_snd]
          have heach := progress_askEach asked t
          refine (hsent _).trans (heach.mono ?_)
          rintro q vulns ⟨hq, reply, answer, hsaid, hanswer⟩
          refine .inl ⟨hq, reply, answer, ?_, hanswer⟩
          exact (hsent fun _ _ => True).network.exchanges_right heach.network hsaid
        | some answer =>
          dsimp only
          rw [on_bind_pure_snd]
          obtain ⟨reply, hsaid, hjudged⟩ := hreply answer rfl
          obtain ⟨hstored, hnetwork⟩ := progress_storeBatch (answer.getD "results" (.list [])) 0 asked t
          refine (hsent _).trans (hstored.mono ?_)
          rintro q vulns ⟨i, hi, hanswer⟩
          rw [zero_add] at hanswer
          refine .inr ⟨answer, i, ⟨⟨reply, ?_, hjudged⟩, congrArg Prod.fst hsend⟩, hi, hanswer⟩
          rw [hnetwork]
          exact hsaid

end Lookup

end CodeAudit

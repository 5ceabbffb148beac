import CodeAudit.Proofs.Dependencies.Progress
import CodeAudit.Proofs.Dependencies.Shapes

/-!
# When a look-up of a package fails

A look-up is meant to give a list whatever happens. Replies that are late, missing or from a busy server, refusals and
texts that are no documents all count as no vulnerabilities. `Breaks` lists the ways in which a look-up ends with a
fault instead, and there are no others (`package_fails_iff`). Only one reply counts, the first that is no reason to ask
again (`decisive?`).
-/

namespace CodeAudit

open Proofs Proofs.Steps Value Json List

variable {p : Package} {reply : Reply}

/-! ## The reply that counts -/

namespace Lookup

/-- The first of some replies that is no reason to send the request again. -/
def decisive? (replies : List Reply) : Option Reply := replies.find? fun r => !r.isRetried

def received (replies : List Reply) : Except Fault (Option Record) :=
  match decisive? replies with
  | some reply => reply.received
  | none => .ok none

lemma received_cons_of_isRetried (h : reply.isRetried) (replies : List Reply) :
    received (reply :: replies) = received replies := by
  unfold received decisive?
  rw [find?_cons_of_neg (by simp [h])]

lemma received_cons_of_not_isRetried (h : reply.isRetried = false) (replies : List Reply) :
    received (reply :: replies) = reply.received := by
  unfold received decisive?
  rw [find?_cons_of_pos (by simp [h])]

/-- **A request ends as the reply that counts is taken**, and with nothing where there is none. -/
lemma sendFrom_fst (request : Request) (left attempt : Nat) (n : Network) :
    (sendFrom request left attempt n).1 = received (n.replies.take left) := by
  induction left generalizing attempt n with
  | zero => rfl
  | succ left ih =>
    have hreplies := (n.send_spec request).1
    have houtcome : ∀ {reply replies}, n.replies = reply :: replies → n.outcome 0 = reply := by
      intro reply replies hreplies
      rw [Network.outcome, hreplies]
      rfl
    rw [sendFrom_succ]
    split
    · next hretried =>
      have hrest : (if (n.outcome 0).isBusy || left != 0 then (n.send request).2.sleep (backoff attempt)
          else (n.send request).2).replies = n.replies.tail := by
        split <;> exact hreplies
      rw [ih, hrest]
      cases hlist : n.replies with
      | nil => rw [tail_nil, take_nil, take_nil]
      | cons reply replies =>
        rw [take_succ_cons, received_cons_of_isRetried (houtcome hlist ▸ hretried), tail_cons]
    · next hcounts =>
      cases hlist : n.replies with
      | nil =>
        rw [Network.outcome, hlist] at hcounts
        exact absurd rfl hcounts
      | cons reply replies =>
        rw [houtcome hlist] at hcounts ⊢
        rw [take_succ_cons, received_cons_of_not_isRetried (Bool.of_not_eq_true hcounts)]

end Lookup

/-! ## What stands in the cache -/

namespace VulnCache

variable {c : VulnCache} {now : Float}

/-- Whether an answer is taken from a stored document or left for its age: it has fields, its time and the limit are
numbers, and what is not too old can be run through. -/
def isEntry (c : VulnCache) (now : Float) (document : Value) : Bool :=
  match document.namedFields with
  | some fields =>
    match (Record.getD fields "ts" (.int 0)).number?, c.ttl.number? with
    | some time, some ttl => time.hasDouble && (Number.compare? (.real (now - time.toFloat)) ttl == some .gt ||
          (Record.getD fields "vulns" (.list [])).runsOver fun _ => true)
    | _, _ => false
  | none => false

/-- Whether a file of the cache can be read: it is text, and no document or an entry. -/
def canRead (c : VulnCache) (now : Float) (content : Content) : Bool :=
  match content.decode .refuse with
  | .ok text => match read (String.ofList (Text.unifyLineEnds text.toList)) with
    | .ok document => c.isEntry now document
    | .error (.badJson _) => true
    | .error _ => false
  | .error _ => false

lemma exceeds_eq (x : Float) (v : Value) : (float x).exceeds v = match v.number? with
    | some n => .ok (Number.compare? (.real x) n == some .gt)
    | none => .error .wrongKind := by
  have horder : (float x).order v = match v.number? with
      | some n => .ok (Number.compare? (.real x) n)
      | none => .error .wrongKind := by
    cases v <;> simp [order, number?]
  unfold exceeds
  rw [horder]
  cases v.number? with
  | none => rfl
  | some n =>
    dsimp only
    rw [ok_bind]
    cases Number.compare? (.real x) n with
    | none => rfl
    | some o => cases o <;> rfl

lemma isOk_live (time vulns : Value) :
    (c.live now time vulns).isOk = match time.number?, c.ttl.number? with
      | some t, some ttl => t.hasDouble && (Number.compare? (.real (now - t.toFloat)) ttl == some .gt ||
          vulns.runsOver fun _ => true)
      | _, _ => false := by
  unfold live
  cases htime : time.number? with
  | none =>
    unfold toFloat?
    rw [htime]
    rfl
  | some t =>
    rw [toFloat?_of_number htime]
    cases hdouble : t.hasDouble with
    | false =>
      rw [if_neg Bool.false_ne_true]
      cases c.ttl.number? with
      | none => rfl
      | some ttl =>
        dsimp only
        rw [hdouble]
        rfl
    | true =>
      rw [if_pos rfl, ok_bind]
      dsimp only
      rw [exceeds_eq]
      cases c.ttl.number? with
      | none => rfl
      | some ttl =>
        dsimp only
        rw [ok_bind, hdouble]
        cases Number.compare? (.real (now - t.toFloat)) ttl == some .gt with
        | true => rfl
        | false => exact isOk_run fun items => by simp [Except.isOk, Except.toBool]

lemma isOk_answerIn (document : Value) : (c.answerIn now document).isOk = c.isEntry now document := by
  unfold answerIn isEntry
  rw [part_eq, part_eq]
  cases document.namedFields with
  | none => rfl
  | some fields => exact isOk_live _ _

lemma isOk_readEntry (content : Content) : (c.readEntry now content).isOk = c.canRead now content := by
  unfold readEntry canRead
  cases content.decode .refuse with
  | error fault => rfl
  | ok text =>
    rw [ok_bind]
    dsimp only
    cases read (String.ofList (Text.unifyLineEnds text.toList)) with
    | ok document => exact isOk_answerIn document
    | error fault => cases fault <;> rfl

lemma isOk_fileName (p : Package) : p.fileName.isOk = Text.isEncodable p.key := by
  unfold Package.fileName Package.digest Package.checkedKey
  split <;> simp_all [Except.map, Except.isOk, Except.toBool]

/-- The cache fails a look-up where the package has no key, or where its file cannot be read. -/
lemma get_fails_iff : (∃ fault, c.get now p = .error fault) ↔ Text.isEncodable p.key = false ∨
    ∃ name content, p.fileName = .ok name ∧ c.entry? name = some (.file content) ∧ c.canRead now content = false := by
  rw [← isOk_eq_false_iff, ← isOk_fileName]
  cases hname : p.fileName with
  | error fault =>
    unfold get
    rw [hname]
    exact iff_of_true rfl (.inl rfl)
  | ok name =>
    cases hentry : c.entry? name with
    | none =>
      rw [get_of_none hname hentry]
      simp [Except.isOk, Except.toBool, hentry]
    | some e =>
      cases e with
      | directory =>
        unfold get
        rw [hname, ok_bind, hentry]
        simp [Except.isOk, Except.toBool, hentry]
      | file content =>
        rw [get_of_file hname hentry, isOk_readEntry]
        simp [Except.isOk, Except.toBool, hentry]

lemma fileName_of_get (h : c.get now p = .ok found) : ∃ name, p.fileName = .ok name := by
  unfold get at h
  obtain ⟨name, hname, -⟩ := of_bind h
  exact ⟨name, hname⟩

lemma put_fails_iff (hname : p.fileName = .ok name) :
    (∃ fault, c.put now p (.list vulns) = .error fault) ↔ c.isWritable name ∧ expressible (.list vulns) = false := by
  have hdocument : expressible (document now (.list vulns)) = expressible (.list vulns) := by
    simp [document, expressible, expressibleFields]
  unfold put writeStrict
  rw [hname, ok_bind, hdocument]
  cases c.isWritable name with
  | false => simp
  | true => cases expressible (.list vulns) <;> simp

end VulnCache

/-! ## A look-up -/

namespace Lookup

def Answers (s : LookupState) (answer : Record) : Prop :=
  ∃ status body, decisive? (s.network.replies.take maxAttempts) = some (.answer status body) ∧ status < 400 ∧
    body.entries = .ok answer

/-- The ways in which a look-up ends without a list. -/
inductive Breaks (p : Package) (s : LookupState) : Prop where
  /-- The names of the package hold half of a character. -/
  | names (h : Text.isEncodable p.key = false)
  /-- The package has a file in the cache that cannot be read. -/
  | entry {name : String} {content : Content} (hname : p.fileName = .ok name)
      (hentry : s.cache.entry? name = some (.file content)) (h : s.cache.canRead s.clock content = false)
  /-- The request failed, and neither for want of time nor of a connection. -/
  | request (hmiss : s.cache.get s.clock p = .ok none)
      (hreply : decisive? (s.network.replies.take maxAttempts) = some .failed)
  /-- The body of the answer is a document, but no record. -/
  | body {status : Int} {body : Body} {fault : Fault} (hmiss : s.cache.get s.clock p = .ok none)
      (hreply : decisive? (s.network.replies.take maxAttempts) = some (.answer status body)) (hstatus : status < 400)
      (hbody : body.entries = .error fault) (hfault : fault.isOfText = false)
  /-- What the answer lists cannot be run through, or is not all advisories. -/
  | advisories {answer : Record} (hmiss : s.cache.get s.clock p = .ok none) (hanswer : Answers s answer)
      (h : (answer.getD "vulns" (.list [])).runsOver Advisory.isReadable = false)
  /-- The advisories are to be stored and have no JSON form; those from a text always have one. -/
  | store {answer : Record} {vulns : List Value} {name : String} (hmiss : s.cache.get s.clock p = .ok none)
      (hanswer : Answers s answer) (hvulns : Advisory.readAll (answer.getD "vulns" (.list [])) = .ok vulns)
      (hname : p.fileName = .ok name) (hwritable : s.cache.isWritable name)
      (h : expressible (.list vulns) = false)

/-- What the replies come to: a fault, or an answer whose body is a document. -/
lemma received_iff : ((∃ fault, received replies = .error fault) ↔
    decisive? replies = some .failed ∨ ∃ status body fault, decisive? replies = some (.answer status body) ∧
      status < 400 ∧ body.entries = .error fault ∧ fault.isOfText = false) ∧
    ∀ answer, received replies = .ok (some answer) ↔
      ∃ status body, decisive? replies = some (.answer status body) ∧ status < 400 ∧ body.entries = .ok answer := by
  unfold received
  cases decisive? replies with
  | none => simp
  | some reply =>
    cases reply with
    | answer status body =>
      dsimp only [Reply.received]
      by_cases hrefused : 400 ≤ status
      · rw [if_pos hrefused]
        simp [hrefused]
      · rw [if_neg hrefused]
        cases hbody : body.entries with
        | ok fields => simp [hbody, Int.not_le.mp hrefused]
        | error fault => cases hfault : fault.isOfText <;> simp [hbody, hfault, Int.not_le.mp hrefused]
    | _ => simp [Reply.received]

lemma package_fst (p : Package) (s : LookupState) : (on (package p) s).1 = (do
    match ← s.cache.get s.clock p with
    | some vulns => pure vulns
    | none =>
      match ← received (s.network.replies.take maxAttempts) with
      | none => pure []
      | some answer =>
        let vulns ← Advisory.readAll (answer.getD "vulns" (.list []))
        let _ ← s.cache.put s.clock p (.list vulns)
        pure vulns) := by
  unfold package
  rw [on_bind, on_cached]
  cases s.cache.get s.clock p with
  | error fault => rfl
  | ok found =>
    rw [ok_bind]
    cases found with
    | some vulns => rfl
    | none =>
      dsimp only
      rw [on_bind, on_send, sendFrom_fst]
      cases received (s.network.replies.take maxAttempts) with
      | error fault => rfl
      | ok answer =>
        rw [ok_bind]
        cases answer with
        | none => rfl
        | some answer =>
          dsimp only
          rw [on_bind, on_ofExcept]
          cases Advisory.readAll (answer.getD "vulns" (.list [])) with
          | error fault => rfl
          | ok vulns =>
            dsimp only
            rw [on_bind, on_store, ok_bind]
            dsimp only
            cases s.cache.put s.clock p (.list vulns) <;> rfl

/-- **When a look-up fails.** Whatever the package, the cache, the clock and the replies, a look-up ends with a fault
exactly in the ways listed, and gives a list in all other cases. -/
theorem package_fails_iff (p : Package) (s : LookupState) :
    (∃ fault, (on (package p) s).1 = .error fault) ↔ Breaks p s := by
  rw [package_fst, fails_bind_iff, VulnCache.get_fails_iff]
  constructor
  · -- follow the look-up to the step that failed
    rintro ((hkey | ⟨name, content, hname, hentry, hread⟩) | ⟨found, hget, hrest⟩)
    · exact .names hkey
    · exact .entry hname hentry hread
    cases found with
    | some vulns =>
      obtain ⟨_, hrest⟩ := hrest
      cases hrest
    | none =>
      rcases fails_bind_iff.mp hrest with hfails | ⟨answer, hreceived, hrest⟩
      · rcases received_iff.1.mp hfails with hreply | ⟨status, body, fault, hreply, hstatus, hbody, hfault⟩
        · exact .request hget hreply
        · exact .body hget hreply hstatus hbody hfault
      cases answer with
      | none =>
        obtain ⟨_, hrest⟩ := hrest
        cases hrest
      | some answer =>
        have hanswer : Answers s answer := (received_iff.2 _).mp hreceived
        rcases fails_bind_iff.mp hrest with hread | ⟨vulns, hvulns, hrest⟩
        · rw [← isOk_eq_false_iff, Advisory.isOk_readAll] at hread
          exact .advisories hget hanswer hread
        rcases fails_bind_iff.mp hrest with hput | ⟨_, _, _, hrest⟩
        · obtain ⟨name, hname⟩ := VulnCache.fileName_of_get hget
          obtain ⟨hwritable, hform⟩ := (VulnCache.put_fails_iff hname).mp hput
          exact .store hget hanswer hvulns hname hwritable hform
        · cases hrest
  · intro h
    cases h with
    | names h => exact .inl (.inl h)
    | entry hname hentry h => exact .inl (.inr ⟨_, _, hname, hentry, h⟩)
    | request hmiss hreply =>
      exact .inr ⟨none, hmiss, fails_bind_iff.mpr (.inl (received_iff.1.mpr (.inl hreply)))⟩
    | body hmiss hreply hstatus hbody hfault =>
      have hfails := received_iff.1.mpr (.inr ⟨_, _, _, hreply, hstatus, hbody, hfault⟩)
      exact .inr ⟨none, hmiss, fails_bind_iff.mpr (.inl hfails)⟩
    | advisories hmiss hanswer h =>
      rw [← Advisory.isOk_readAll, isOk_eq_false_iff] at h
      exact .inr ⟨none, hmiss, fails_bind_iff.mpr (.inr ⟨_, (received_iff.2 _).mpr hanswer,
        fails_bind_iff.mpr (.inl h)⟩)⟩
    | @store answer vulns name hmiss hanswer hvulns hname hwritable h =>
      have hput : ∃ fault, s.cache.put s.clock p (.list vulns) = .error fault :=
        (VulnCache.put_fails_iff hname).mpr ⟨hwritable, h⟩
      exact .inr ⟨none, hmiss, fails_bind_iff.mpr (.inr ⟨_, (received_iff.2 _).mpr hanswer,
        fails_bind_iff.mpr (.inr ⟨_, hvulns, fails_bind_iff.mpr (.inl hput)⟩)⟩)⟩

/-- A network on which a request fails, and neither for want of time nor of a connection. -/
def brokenNetwork : LookupState where
  network := { replies := [.failed] }
  cache := .empty (.int 86400)
  clock := 1700000000.0

/-- With such a network and nothing in the cache there is no list for a package. -/
theorem package_fails_of_brokenNetwork :
    ∃ fault, (on (package (.ofTexts "PyPI" "flask" "1.0")) brokenNetwork).1 = .error fault :=
  (package_fails_iff _ _).mpr (.request rfl rfl)

end Lookup

end CodeAudit

/-!
## Packages recorded as clean

A package with an empty list in the cache counts as clean. A package that is asked for alone gets one only when its own
request was answered; a package of a batch also when the server has left it out: short results are filled up with empty
lists (`IsLeftOut`). There is no third way, and a package that is left out always gets one (`cachedEmpty_of_batch`).
-/

namespace CodeAudit.Lookup

open Proofs Proofs.Steps List VulnCache

variable {queries : List Value}

variable {s t : LookupState} {asked : List Package} {p : Package} {said : List (Request × Reply)} {record : Record}

lemma answerAt_cases (h : answerAt answers i = .ok vulns) :
    ∃ entries, answers.elements = .ok entries ∧
      ((∃ entry, entries[i]? = some entry ∧ readAnswer entry = .ok vulns) ∨ entries.length ≤ i ∧ vulns = []) := by
  obtain ⟨size, hsize, h⟩ := of_bind h
  unfold Value.size at hsize
  cases helements : answers.elements with
  | error fault =>
    rw [helements] at hsize
    cases hsize
  | ok entries =>
    rw [helements] at hsize
    cases hsize
    refine ⟨entries, rfl, ?_⟩
    by_cases hi : i < entries.length
    · rw [if_pos hi, helements, ok_bind] at h
      have hentry : entries[i]? = some entries[i] := getElem?_eq_getElem hi
      refine .inl ⟨entries[i], hentry, ?_⟩
      rw [hentry] at h
      split at h
      · cases h
      · exact h
    · rw [if_neg hi] at h
      cases h
      exact .inr ⟨Nat.le_of_not_lt hi, rfl⟩

/-- The server said that there is nothing on a package, in reply to its own request or at its place in the batch. -/
def SaidNothing (s : LookupState) (said : List (Request × Reply)) (asked : List Package) (p : Package) : Prop :=
  p ∈ asked ∧ SaidAlone said p [] ∨ ∃ (answer : Record) (i : Nat), SaidTogether s said asked answer ∧
    asked[i]? = some p ∧ ∃ entries entry, (answer.getD "results" (.list [])).elements = .ok entries ∧
      entries[i]? = some entry ∧ readAnswer entry = .ok []

/-- The server answered the batch, but with too few entries to have one for a package. -/
def IsLeftOut (s : LookupState) (said : List (Request × Reply)) (asked : List Package) (p : Package) : Prop :=
  ∃ (answer : Record) (i : Nat), SaidTogether s said asked answer ∧ asked[i]? = some p ∧
    ∃ entries, (answer.getD "results" (.list [])).elements = .ok entries ∧ entries.length ≤ i

lemma saidNothing_or_isLeftOut (h : Vouched s said asked p []) :
    SaidNothing s said asked p ∨ IsLeftOut s said asked p := by
  rcases h with halone | ⟨answer, i, htogether, hi, hanswer⟩
  · exact .inl (.inl halone)
  · obtain ⟨entries, helements, ⟨entry, hentry, hread⟩ | ⟨hlength, -⟩⟩ := answerAt_cases hanswer
    · exact .inl (.inr ⟨answer, i, htogether, hi, entries, entry, helements, hentry, hread⟩)
    · exact .inr ⟨answer, i, htogether, hi, entries, helements, hlength⟩

lemma Progress.vouched_nil (h : Progress P s t) (hbefore : s.cache.get s.clock p = .ok none)
    (hafter : t.cache.get t.clock p = .ok (some [])) : ∃ q, q.fileName = p.fileName ∧ P q [] := by
  rw [h.clock] at hafter
  cases hname : p.fileName with
  | error fault =>
    unfold VulnCache.get at hbefore
    rw [hname] at hbefore
    cases hbefore
  | ok name =>
    -- the file is as it was, which is excluded, or holds an answer, which must have been empty
    rcases h.entries name with hsame | ⟨q, vulns, hP, hq, hentry⟩
    · rw [get_congr hname h.ttl hsame, hbefore] at hafter
      cases hafter
    · rw [get_of_file hname hentry] at hafter
      cases eq_nil_of_readEntry hafter
      exact ⟨q, hq, hP⟩

lemma mem_uncached (h : p ∈ uncached s queries) : s.cache.get s.clock p = .ok none := by
  unfold uncached at h
  obtain ⟨q, -, hq⟩ := mem_filterMap.mp h
  split at hq
  · split at hq
    · cases hq
      assumption
    · cases hq
  · cases hq

lemma storeBatch_of_batch {i : Nat}
    (hrun : on (batch queries) s = (.ok record, t)) (hi : (uncached s queries)[i]? = some p)
    (hanswer : (on (send (batchRequest (uncached s queries))) s).1 = .ok (some answer)) :
    ∃ fresh, on (storeBatch (answer.getD "results" (.list [])) 0 (uncached s queries))
      (on (send (batchRequest (uncached s queries))) s).2 = (.ok fresh, t) := by
  unfold batch at hrun
  obtain ⟨parts, between, hsplit, hrun⟩ := of_on_bind hrun
  rw [on_split] at hsplit
  obtain ⟨hdivided, rfl⟩ := Prod.mk.inj hsplit
  have hasked := eq_uncached_of_divided hdivided
  obtain ⟨answered, asked⟩ := parts
  dsimp only at hasked hrun
  rw [← hasked] at hi hanswer ⊢
  have hsome : asked.isEmpty = false := by
    cases asked with
    | nil => cases hi
    | cons first rest => rfl
  rw [hsome, if_neg Bool.false_ne_true] at hrun
  obtain ⟨received, between, hsend, hrun⟩ := of_on_bind hrun
  rw [hsend] at hanswer ⊢
  cases hanswer
  obtain ⟨fresh, after, hstored, hrun⟩ := of_on_bind hrun
  cases hrun
  exact ⟨fresh, hstored⟩

/-- A package that the server has left out is recorded with an empty list. -/
lemma get_of_isLeftOut (hrun : on (batch queries) s = (.ok record, t))
    (hout : IsLeftOut s said (uncached s queries) p) (hlasting : s.cache.IsLasting) (hclock : s.clock.isFinite)
    (hname : p.fileName = .ok name) (hwritable : s.cache.isWritable name) : t.cache.get t.clock p = .ok (some []) := by
  obtain ⟨answer, i, ⟨-, hanswer⟩, hi, entries, helements, hlength⟩ := hout
  obtain ⟨fresh, hstored⟩ := storeBatch_of_batch hrun hi hanswer
  rw [on_send] at hstored
  obtain ⟨j, q, vulns, hle, -, -, hat, hentry⟩ := entry?_of_storeBatch hstored hi hname hwritable
  rw [Nat.zero_add] at hat
  -- the places after one that is left out are left out too
  obtain ⟨entries', helements', ⟨entry, hj, -⟩ | ⟨-, rfl⟩⟩ := answerAt_cases hat
  · rw [helements] at helements'
    cases helements'
    have hlt := (List.getElem?_eq_some_iff.mp hj).1
    omega
  · have hprogress := progress_batch queries s
    rw [hrun] at hprogress
    rw [hprogress.clock]
    exact get_of_fresh (hprogress.isLasting hlasting) hclock (by decide) hname hentry

/-- **Why a batch records a package as clean.** A package that was not cached and is cached with an empty list after a
batch, however the batch has ended, has its file from a package of which the server said that there is nothing on it, or
which the server left out; and when the batch ends well each package that was left out is recorded that way, if its file
can be written and new entries count at all. -/
theorem cachedEmpty_of_batch {queries : List Value} {result : Except Fault Record}
    (hrun : on (batch queries) s = (result, t)) :
    (∀ p ∈ uncached s queries, t.cache.get t.clock p = .ok (some []) → ∃ q, q.fileName = p.fileName ∧
        (SaidNothing s (s.network.exchanges t.network) (uncached s queries) q ∨
          IsLeftOut s (s.network.exchanges t.network) (uncached s queries) q)) ∧
    (result.isOk = true → s.cache.IsLasting → s.clock.isFinite = true → ∀ p name,
      IsLeftOut s (s.network.exchanges t.network) (uncached s queries) p → p.fileName = .ok name →
      s.cache.isWritable name = true → t.cache.get t.clock p = .ok (some [])) := by
  constructor
  · intro p hp hafter
    have hprogress := progress_batch queries s
    rw [hrun] at hprogress
    obtain ⟨q, hq, hvouched⟩ := hprogress.vouched_nil (mem_uncached hp) hafter
    exact ⟨q, hq, saidNothing_or_isLeftOut hvouched⟩
  · intro hok hlasting hclock p name hout hname hwritable
    obtain ⟨record, rfl⟩ := isOk_iff.mp hok
    exact get_of_isLeftOut hrun hout hlasting hclock hname hwritable

def twoQueries : List Value :=
  [.obj [("ecosystem", .str "PyPI"), ("package", .str "flask"), ("version", .str "1.0")],
    .obj [("ecosystem", .str "PyPI"), ("package", .str "six"), ("version", .str "1.0")]]

def shortReply : LookupState where
  network := { replies := [.answer 200 (.document (.obj [("results", .list [.obj []])]))] }
  cache := .empty (.int 86400)
  clock := 1700000000.0

/-- Of two packages the second one is recorded as clean although the server has said nothing about it. -/
theorem cachedEmpty_of_shortReply :
    ∃ result after, on (batch twoQueries) shortReply = (result, after) ∧
      after.cache.get after.clock (.ofTexts "PyPI" "six" "1.0") = .ok (some []) ∧
      ¬ SaidNothing shortReply (shortReply.network.exchanges after.network) (uncached shortReply twoQueries)
        (.ofTexts "PyPI" "six" "1.0") := by
  have hok : (on (batch twoQueries) shortReply).1.isOk = true := by decide +kernel
  obtain ⟨record, hrecord⟩ := isOk_iff.mp hok
  have hrun : on (batch twoQueries) shortReply = (.ok record, (on (batch twoQueries) shortReply).2) :=
    Prod.ext hrecord rfl
  have hanswer : (on (send (batchRequest (uncached shortReply twoQueries))) shortReply).1 =
      .ok (some [("results", .list [.obj []])]) := rfl
  obtain ⟨fresh, hstored⟩ := storeBatch_of_batch (i := 1) hrun rfl hanswer
  have hsaid : shortReply.network.exchanges (on (batch twoQueries) shortReply).2.network =
      [(batchRequest (uncached shortReply twoQueries),
        .answer 200 (.document (.obj [("results", .list [.obj []])])))] := by
    rw [network_of_storeBatch hstored]
    rfl
  have hout : IsLeftOut shortReply (shortReply.network.exchanges (on (batch twoQueries) shortReply).2.network)
      (uncached shortReply twoQueries) (.ofTexts "PyPI" "six" "1.0") := by
    refine ⟨[("results", .list [.obj []])], 1, ⟨?_, hanswer⟩, rfl, [.obj []], rfl, Nat.le_refl 1⟩
    rw [hsaid]
    exact ⟨_, mem_singleton_self _, rfl⟩
  have hlasting : shortReply.cache.IsLasting := ⟨.whole 86400, rfl, rfl, by decide +kernel⟩
  refine ⟨.ok record, _, hrun, ?_, ?_⟩
  · exact (cachedEmpty_of_batch hrun).2 rfl hlasting (by decide +kernel) _ _ hout rfl rfl
  · rintro (⟨-, reply, answer, hmem, -⟩ | ⟨answer, i, ⟨-, htaken⟩, hi, entries, entry, helements, hentry, -⟩)
    · rw [hsaid, mem_singleton] at hmem
      have hurl : queryUrl = batchUrl := congrArg (fun said => said.1.url) hmem
      exact absurd hurl (by decide)
    · rw [hanswer] at htaken
      cases htaken
      cases helements
      rcases i with _ | _ | i
      · exact absurd (congrArg (Option.map Package.label) hi) (by decide +kernel)
      · cases hentry
      · cases hi

end CodeAudit.Lookup

import CodeAudit.Proofs.Dependencies.Progress
import Mathlib.Data.List.Perm.Basic

/-!
# Advisories can be stored

What is read from an answer of the server is made of parts of it. So advisories read from a document are documents, and
fit into an entry of the cache, which nests them less deeply.
-/

namespace CodeAudit.Advisory

open Proofs List Json

variable {found : List AffectedRange}

variable {room : Nat} {vuln : Value} {a : Advisory}

lemma isDocument_nil : isDocument (room + 1) (.list []) :=
  isDocument_list.mpr fun _ hv => absurd hv not_mem_nil

def IsKept (room : Nat) (range : AffectedRange) : Prop :=
  isDocument room range.introduced ∧ isDocument room range.fixed

lemma isDocument_readBound (hevent : isDocument room event) (hbefore : isDocument room before)
    (hx : readBound event name before = .ok x) : isDocument room x := by
  obtain ⟨named, -, hx⟩ := of_bind hx
  cases named with
  | true => exact isDocument_need hevent hx
  | false =>
    cases hx
    exact hbefore

lemma isKept_readBounds (h : ∀ event ∈ events, isDocument room event)
    {range : AffectedRange} (hrange : readBounds events = .ok range) : IsKept room range := by
  have hnull : isDocument room .null := by rw [isDocument]
  refine foldlM_invariant hrange (IsKept room) ⟨hnull, hnull⟩ ?_
  intro event hevent range hkept next hnext
  obtain ⟨introduced, hintroduced, hnext⟩ := of_bind hnext
  obtain ⟨fixed, hfixed, hnext⟩ := of_bind hnext
  cases hnext
  exact ⟨isDocument_readBound (h event hevent) hkept.1 hintroduced,
    isDocument_readBound (h event hevent) hkept.2 hfixed⟩

lemma isKept_readRange {range : Value} (h : isDocument (room + 1) range)
    (hfound : readRange range = .ok found) : ∀ r ∈ found, IsKept (room + 1) r := by
  obtain ⟨events, hevents, hfound⟩ := of_bind hfound
  obtain ⟨items, hitems, hfound⟩ := of_bind hfound
  obtain ⟨bounds, hbounds, hfound⟩ := of_bind hfound
  have hkept := isKept_readBounds (isDocument_elements (isDocument_part h isDocument_nil hevents) hitems) hbounds
  cases hfound
  intro r hr
  split at hr
  · rw [mem_singleton.mp hr]
    exact hkept
  · cases hr

lemma isKept_collected {readItem : Value → Except Fault (List AffectedRange)} (hlist : isDocument room list)
    (h : ∀ item, isDocument room item → ∀ found, readItem item = .ok found → ∀ r ∈ found, IsKept m r)
    (hfound : (do return (← (← list.elements).mapM readItem).flatten) = .ok found) : ∀ r ∈ found, IsKept m r := by
  obtain ⟨items, hitems, hfound⟩ := of_bind hfound
  obtain ⟨lists, hlists, hfound⟩ := of_bind hfound
  cases hfound
  intro r hr
  obtain ⟨found, hmem, hr⟩ := mem_flatten.mp hr
  obtain ⟨item, hitem, hread⟩ := exists_mem_of_mapM hlists hmem
  exact h item (isDocument_elements hlist hitems item hitem) found hread r hr

lemma isKept_readAffected (h : isDocument (room + 1) affected) (hfound : readAffected affected = .ok found) :
    ∀ r ∈ found, IsKept (room + 1) r := by
  obtain ⟨ranges, hranges, hfound⟩ := of_bind hfound
  exact isKept_collected (isDocument_part h isDocument_nil hranges) (fun _ hitem _ => isKept_readRange hitem) hfound

lemma isKept_readRanges (h : isDocument (room + 2) vuln) (hfound : readRanges vuln = .ok found) :
    ∀ r ∈ found, IsKept (room + 1) r := by
  obtain ⟨affected, haffected, hfound⟩ := of_bind hfound
  exact isKept_collected (isDocument_field h isDocument_nil haffected) (fun _ hitem _ => isKept_readAffected hitem) hfound

structure IsWhole (room : Nat) (a : Advisory) : Prop where
  id : isDocument room a.id
  summary : isDocument room a.summary
  cves : ∀ v ∈ a.cves, isDocument room v
  urls : isDocument (room + 1) a.urls
  ranges : ∀ r ∈ a.ranges, IsKept room r

/-- **An advisory is made of parts of the document that it is read from.** -/
lemma isWhole_read (h : isDocument (room + 2) vuln) (ha : read vuln = .ok a) : IsWhole (room + 1) a := by
  have htext : ∀ s, mendedText s = s → isDocument (room + 1) (.str s) := by
    intro s hs
    rw [isDocument, beq_iff_eq, hs]
  have hnull : isDocument (room + 1) .null := by rw [isDocument]
  simp only [read, bind_eq_ok_iff] at ha
  obtain ⟨id, hid, details, hdetails, text, htextPart, summary, hsummary, names, hnames, aliases, haliases, cves, hcves,
    ⟨level, score⟩, -, links, hlinks, references, hreferences, urls, hurls, ranges, hranges, ha⟩ := ha
  cases ha
  -- the details stand in for a summary that is missing
  have hdetailsKept := isDocument_field h (htext _ (by decide)) hdetails
  refine ⟨isDocument_field h (htext _ (by decide)) hid, isDocument_cut (isDocument_field h hdetailsKept htextPart) hsummary,
    ?_, ?_, isKept_readRanges h hranges⟩
  · intro v hv
    exact isDocument_elements (isDocument_field h isDocument_nil hnames) haliases v (mem_of_filterM hcves v hv)
  · refine isDocument_list.mpr fun url hurl => ?_
    obtain ⟨reference, hreference, hpart⟩ :=
      exists_mem_of_mapM hurls (mem_filter.mp (mem_of_mem_take hurl)).1
    have hkept := isDocument_elements (isDocument_field h isDocument_nil hlinks) hreferences reference hreference
    exact isDocument_part hkept hnull hpart

lemma isDocument_toRecord (h : IsWhole room a) : isDocument (room + 3) (.obj a.toRecord) := by
  have hmore : ∀ {v}, isDocument room v → isDocument (room + 2) v :=
    fun hv => isDocument_mono (Nat.le_add_right _ _) _ hv
  refine isDocument_obj.mpr ⟨?_, ?_⟩
  · show ["vuln_id", "summary", "cve_ids", "severity", "cvss_score", "advisory_urls", "affected_ranges"].Nodup
    decide
  · unfold toRecord
    simp only [forall_mem_cons]
    refine ⟨⟨by decide, hmore h.id⟩, ⟨by decide, hmore h.summary⟩, ⟨by decide, ?_⟩, ⟨by decide, ?_⟩, ⟨by decide, ?_⟩,
      ⟨by decide, isDocument_mono (Nat.le_succ _) _ h.urls⟩, ⟨by decide, ?_⟩, fun _ hf => absurd hf not_mem_nil⟩
    · exact isDocument_list.mpr fun v hv => isDocument_mono (Nat.le_succ _) v (h.cves v hv)
    · rw [isDocument]
      cases a.level <;> decide
    · cases a.score <;> exact (by rw [Option.map, Option.getD, isDocument])
    · refine isDocument_list.mpr fun v hv => ?_
      obtain ⟨r, hr, rfl⟩ := mem_map.mp hv
      refine isDocument_obj.mpr ⟨show ["introduced", "fixed"].Nodup by decide, ?_⟩
      simp only [forall_mem_cons]
      exact ⟨⟨by decide, (h.ranges r hr).1⟩, ⟨by decide, (h.ranges r hr).2⟩, fun _ hf => absurd hf not_mem_nil⟩

lemma isDocument_readAll (h : isDocument (room + 3) vulns) {found : List Value}
    (hfound : readAll vulns = .ok found) : ∀ v ∈ found, isDocument (room + 4) v := by
  obtain ⟨items, hitems, hfound⟩ := of_bind hfound
  intro v hv
  obtain ⟨item, hitem, hread⟩ := exists_mem_of_mapM hfound hv
  obtain ⟨a, ha, hread⟩ := of_bind hread
  cases hread
  exact isDocument_toRecord (isWhole_read (isDocument_inside h hitems item hitem) ha)

end CodeAudit.Advisory

namespace CodeAudit.Lookup

open Proofs Json

/-- **What an entry of a batch's answer says can be stored**, if the answer is a document. -/
lemma isStorable_readAnswer (h : isDocument deepest (.obj answer))
    (hresults : Record.get? answer "results" = some (.list entries)) (hentry : entry ∈ entries)
    (hvulns : readAnswer entry = .ok vulns) : VulnCache.isStorable vulns := by
  -- the record, its results and their entries take a level each
  have hdeepest : deepest = 982 + 4 + 1 + 1 := rfl
  obtain ⟨inside, hroom, hlist⟩ := isDocument_get? h rfl hresults
  rw [hdeepest] at hroom
  cases hroom
  have hentryKept : isDocument (982 + 4) entry := isDocument_list.mp hlist entry hentry
  obtain ⟨raw, hraw, hfound⟩ := of_bind hvulns
  have hrawKept : isDocument (982 + 3) raw := isDocument_field hentryKept Advisory.isDocument_nil hraw
  exact isDocument_list.mpr (Advisory.isDocument_readAll hrawKept hfound)

end CodeAudit.Lookup

/-!
## Batches that are answered in full

When the server has a well-formed entry for each package that is not cached, a batch returns for each package the cached
answer or what its own entry says. Everything is cached then, so the same batch again sends no request (`batch_twice`).
The cache must be usable: where a directory stands in place of a file, its package is asked for again and again
(`asksAgain_of_blocked`).
-/

namespace CodeAudit.Lookup

open Proofs Proofs.Steps List PlainPackage VulnCache Record

variable {s : LookupState} {queries : List Value} {packages : List PlainPackage}

variable {p q : PlainPackage} {found : PlainPackage → Option (List Value)} {vulns : PlainPackage → List Value}
  {entry : PlainPackage → Value} {asked : List PlainPackage} {fresh : Record} {t : LookupState}

/-- An answer as a batch returns it. -/
def labelled (vulns : PlainPackage → List Value) (p : PlainPackage) : String × Value :=
  (p.toPackage.label, .list (vulns p))

/-! ## The packages of a batch -/

/-- Queries for packages with plain names that differ in more than case, and versions without an at sign. -/
structure AreQueries (queries : List Value) (packages : List PlainPackage) : Prop where
  read : queries.map readPackage = packages.map fun p => .ok p.toPackage
  distinct : (packages.map folded).Nodup
  versions : ∀ p ∈ packages, '@' ∉ p.version.toList
  digests : NoCollisions packages

lemma AreQueries.eq_of_folded (h : AreQueries queries packages) (hp : p ∈ packages)
    (hq : q ∈ packages) (heq : p.folded = q.folded) : p = q :=
  inj_on_of_nodup_map h.distinct hp hq heq

lemma AreQueries.eq_of_file (h : AreQueries queries packages) (hp : p ∈ packages)
    (hq : q ∈ packages) (heq : p.file = q.file) : p = q :=
  h.eq_of_folded hp hq ((file_eq_iff h.digests hp hq).mp heq)

lemma AreQueries.nodup_labels (h : AreQueries queries packages) : (packages.map fun p => p.toPackage.label).Nodup := by
  refine Nodup.map_on ?_ (Nodup.of_map _ h.distinct)
  intro p hp q hq heq
  have hsame := label_inj (h.versions p hp) (h.versions q hq) heq
  exact h.eq_of_folded hp hq (key_eq_iff.mp (by rw [hsame]))

lemma divided_eq (hread : queries.map readPackage = packages.map fun p => .ok p.toPackage)
    (hget : ∀ p ∈ packages, s.cache.get s.clock p.toPackage = .ok (found p)) (vulns : PlainPackage → List Value) :
    divided s queries = .ok
      ((packages.filter fun p => (found p).isSome).map (labelled fun p => (found p).getD (vulns p)),
        (packages.filter fun p => (found p).isNone).map toPackage) := by
  induction packages generalizing queries with
  | nil =>
    rw [map_eq_nil_iff.mp hread]
    rfl
  | cons p packages ih =>
    obtain ⟨q, rest, rfl, hq, hrest⟩ := map_eq_cons_iff.mp hread
    have hothers := ih hrest fun p hp => hget p (mem_cons_of_mem _ hp)
    rw [divided, hq, ok_bind, hget p mem_cons_self, ok_bind, hothers, ok_bind]
    cases hfound : found p with
    | none =>
      rw [filter_cons_of_neg (by simp [hfound]), filter_cons_of_pos (by simp [hfound]), map_cons]
    | some cached =>
      rw [filter_cons_of_pos (by simp [hfound]), filter_cons_of_neg (by simp [hfound]), map_cons, labelled, hfound]
      rfl

lemma names_labelled (vulns : PlainPackage → List Value) (packages : List PlainPackage) :
    names (packages.map (labelled vulns)) = packages.map fun p => p.toPackage.label := by
  unfold names
  rw [map_map]
  rfl

/-- **A batch of packages that are all cached is answered from the cache**, and nothing changes. -/
lemma batch_of_cached (hqueries : AreQueries queries packages)
    (hget : ∀ p ∈ packages, s.cache.get s.clock p.toPackage = .ok (some (vulns p))) :
    on (batch queries) s = (.ok (packages.map (labelled vulns)), s) := by
  have hdivided := @divided_eq s queries packages (fun p => some (vulns p)) hqueries.read hget vulns
  have hsplit := on_split queries s
  simp only [Option.isSome_some, filter_true, Option.getD_some, Option.isNone_some, filter_false, map_nil] at hdivided
  rw [hdivided] at hsplit
  have hrecord : ofFields (packages.map (labelled vulns)) = packages.map (labelled vulns) :=
    ofFields_of_nodup (by rw [names_labelled]; exact hqueries.nodup_labels)
  unfold batch
  rw [on_bind_of_ok hsplit]
  dsimp only
  rw [isEmpty_nil, if_pos rfl, on_pure, hrecord]

/-! ## Answers in full -/

/-- What is found for each package: no look-up fails, files to be written can be, and an answer just stored counts. -/
structure IsUsable (s : LookupState) (packages : List PlainPackage) (found : PlainPackage → Option (List Value)) :
    Prop where
  lasting : s.cache.IsLasting
  clock : s.clock.isFinite
  get : ∀ p ∈ packages, s.cache.get s.clock p.toPackage = .ok (found p)
  writable : ∀ p ∈ packages, found p = none → s.cache.isWritable p.file

lemma IsUsable.send (h : IsUsable s packages found) (request : Request) :
    IsUsable (on (send request) s).2 packages found := by
  rw [on_send]
  exact ⟨h.lasting, h.clock, h.get, h.writable⟩

/-- The server answers a request with a well-formed entry for each of some packages, in order; `vulns` is what these
say. -/
def AnswersEach (s : LookupState) (asked : List PlainPackage) (vulns : PlainPackage → List Value) : Prop :=
  ∃ (answer : Record) (entry : PlainPackage → Value),
    (on (send (batchRequest (asked.map toPackage))) s).1 = .ok (some answer) ∧
    Json.isDocument Json.deepest (.obj answer) ∧
    get? answer "results" = some (.list (asked.map entry)) ∧
    ∀ p ∈ asked, readAnswer (entry p) = .ok (vulns p)

lemma answerAt_list {entry : Value} (h : items[i]? = some entry) : answerAt (.list items) i = readAnswer entry := by
  obtain ⟨hi, -⟩ := List.getElem?_eq_some_iff.mp h
  unfold answerAt Value.size Value.elements
  dsimp only [Except.map]
  rw [ok_bind, if_pos hi, ok_bind, h]
  rfl

lemma exists_put (c : VulnCache) (now : Float) (p : PlainPackage) {vulns : List Value}
    (h : isStorable vulns) : ∃ d, c.put now p.toPackage (.list vulns) = .ok d := by
  by_cases hwritable : c.isWritable p.file
  · exact ⟨_, put_eq p.fileName_toPackage hwritable h now⟩
  · exact ⟨c, put_of_not_isWritable p.fileName_toPackage (Bool.eq_false_iff.mpr hwritable) now _⟩

lemma on_storeBatch (hread : ∀ p ∈ asked, readAnswer (entry p) = .ok (vulns p))
    (hstorable : ∀ p ∈ asked, isStorable (vulns p)) (before : List Value) (s : LookupState) :
    ∃ cache, on (storeBatch (.list (before ++ asked.map entry)) before.length (asked.map toPackage)) s =
      (.ok (asked.map (labelled vulns)), { s with cache }) := by
  induction asked generalizing before s with
  | nil => exact ⟨s.cache, rfl⟩
  | cons p rest ih =>
    have hanswer : answerAt (.list (before ++ (p :: rest).map entry)) before.length = .ok (vulns p) := by
      rw [answerAt_list (getElem?_append_right (Nat.le_refl _) |>.trans (by rw [Nat.sub_self]; rfl))]
      exact hread p mem_cons_self
    obtain ⟨stored, hput⟩ := exists_put s.cache s.clock p (hstorable p mem_cons_self)
    -- the entry that was read joins those before
    obtain ⟨cache, hrest⟩ := ih (fun q hq => hread q (mem_cons_of_mem _ hq))
      (fun q hq => hstorable q (mem_cons_of_mem _ hq)) (before ++ [entry p]) { s with cache := stored }
    rw [length_append, append_assoc] at hrest
    refine ⟨cache, ?_⟩
    rw [map_cons (f := toPackage), storeBatch, hanswer, on_ok_bind, on_bind_of_ok (on_store_of_ok hput)]
    exact on_bind_of_ok hrest

lemma on_batch_of_answer {asked : List Package} (hdivided : divided s queries = .ok (known, asked))
    (hasked : asked ≠ []) (hsend : on (send (batchRequest asked)) s = (.ok (some answer), t))
    (hstore : on (storeBatch (answer.getD "results" (.list [])) 0 asked) t = (.ok fresh, u)) :
    on (batch queries) s = (.ok (fresh.foldl (fun r field => put r field.1 field.2) (ofFields known)), u) := by
  have hsplit := on_split queries s
  rw [hdivided] at hsplit
  unfold batch
  rw [on_bind_of_ok hsplit]
  dsimp only
  rw [if_neg (by simpa using hasked), on_bind_of_ok hsend]
  dsimp only
  rw [on_bind_of_ok hstore, on_pure]

/-- After the answers are stored every package is cached with its answer, old or new. -/
lemma get_of_storeBatch (hqueries : AreQueries queries packages) (husable : IsUsable s packages found)
    (hasked : asked = packages.filter fun p => (found p).isNone)
    (hread : ∀ p ∈ asked, readAnswer (entry p) = .ok (vulns p))
    (hstorable : ∀ p ∈ asked, isStorable (vulns p))
    (hstore : on (storeBatch (.list (asked.map entry)) 0 (asked.map toPackage)) s = (.ok fresh, t)) :
    ∀ p ∈ packages, t.cache.get t.clock p.toPackage = .ok (some ((found p).getD (vulns p))) := by
  intro p hp
  obtain ⟨hprogress, -⟩ := progress_storeBatch (.list (asked.map entry)) 0 (asked.map toPackage) s
  rw [hstore] at hprogress
  -- a file of the packages that are asked for belongs to one of them only
  have howner : ∀ {j : Nat} {q : Package}, (asked.map toPackage)[j]? = some q → q.fileName = .ok p.file →
      asked[j]? = some p := by
    intro j q hj hq
    rw [getElem?_map] at hj
    obtain ⟨r, hr, rfl⟩ := Option.map_eq_some_iff.mp hj
    have hmem : r ∈ packages := by
      have := mem_of_getElem? hr
      rw [hasked] at this
      exact (mem_filter.mp this).1
    rw [fileName_toPackage] at hq
    rw [hr, hqueries.eq_of_file hmem hp (Except.ok.inj hq)]
  rw [hprogress.clock]
  cases hfound : found p with
  | some cached =>
    -- no package that is asked for has this file, so it is as it was
    rcases hprogress.entries p.file with hsame | ⟨q, later, ⟨j, hj, -⟩, hq, -⟩
    · rw [get_congr p.fileName_toPackage hprogress.ttl hsame, husable.get p hp, hfound]
      rfl
    · have hmem := mem_of_getElem? (howner hj hq)
      rw [hasked] at hmem
      simp [hfound] at hmem
  | none =>
    have hmem : p ∈ asked := by
      rw [hasked]
      exact mem_filter.mpr ⟨hp, by rw [hfound]; rfl⟩
    obtain ⟨k, hk⟩ := mem_iff_getElem?.mp hmem
    have hplace : (asked.map toPackage)[k]? = some p.toPackage := by
      rw [getElem?_map, hk]
      rfl
    -- the last package with this file is the package itself, so its own answer is there
    obtain ⟨j, q, stored, -, hj, hq, hanswer, hentry⟩ :=
      entry?_of_storeBatch hstore hplace p.fileName_toPackage (husable.writable p hp hfound)
    have hat : (asked.map entry)[j]? = some (entry p) := by
      rw [getElem?_map, howner hj hq]
      rfl
    rw [Nat.zero_add, answerAt_list hat, hread p hmem] at hanswer
    cases hanswer
    exact get_of_fresh (hprogress.isLasting husable.lasting) husable.clock (hstorable p hmem) p.fileName_toPackage hentry

lemma perm_labelled (found : PlainPackage → Option (List Value)) (vulns : PlainPackage → List Value)
    (packages : List PlainPackage) :
    ((packages.filter fun p => (found p).isSome).map (labelled fun p => (found p).getD (vulns p)) ++
      (packages.filter fun p => (found p).isNone).map (labelled vulns)).Perm
      (packages.map (labelled fun p => (found p).getD (vulns p))) := by
  have hfresh : (packages.filter fun p => (found p).isNone).map (labelled vulns) =
      (packages.filter fun p => !(found p).isSome).map (labelled fun p => (found p).getD (vulns p)) := by
    simp only [Option.not_isSome]
    refine map_congr_left fun p hp => ?_
    rw [labelled, labelled, Option.isNone_iff_eq_none.mp (mem_filter.mp hp).2]
    rfl
  rw [hfresh, ← map_append]
  exact (filter_append_perm _ packages).map _

/-- A batch that is answered in full returns all answers and leaves each package cached with its own. -/
lemma batch_of_answers (hqueries : AreQueries queries packages) (husable : IsUsable s packages found)
    (hasked : asked = packages.filter fun p => (found p).isNone) (hsome : asked ≠ [])
    (hanswers : AnswersEach s asked vulns) :
    ∃ record after, on (batch queries) s = (.ok record, after) ∧
      record.Perm (packages.map (labelled fun p => (found p).getD (vulns p))) ∧
      ∀ p ∈ packages, after.cache.get after.clock p.toPackage = .ok (some ((found p).getD (vulns p))) := by
  have hdivided := divided_eq hqueries.read husable.get vulns
  have hall := perm_labelled found vulns packages
  rw [← hasked] at hdivided hall
  have hnodup := hall.map Prod.fst |>.nodup_iff.mpr (by
    rw [← names, names_labelled]
    exact hqueries.nodup_labels)
  obtain ⟨answer, entry, hanswer, hdocument, hresults, hread⟩ := hanswers
  have hstorable : ∀ p ∈ asked, isStorable (vulns p) := fun p hp =>
    isStorable_readAnswer hdocument hresults (mem_map_of_mem hp) (hread p hp)
  rcases hsend : on (send (batchRequest (asked.map toPackage))) s with ⟨received, t⟩
  have husable := husable.send (batchRequest (asked.map toPackage))
  rw [hsend] at hanswer husable
  cases hanswer
  obtain ⟨cache, hstore⟩ := on_storeBatch hread hstorable [] t
  have hlist : answer.getD "results" (.list []) = .list (asked.map entry) := by
    rw [Record.getD, hresults]
    rfl
  rw [nil_append, ← hlist] at hstore
  -- labels are different, so the new answers stand behind the cached ones
  have hrun := on_batch_of_answer hdivided (mt map_eq_nil_iff.mp hsome) hsend hstore
  rw [ofFields_of_nodup (Nodup.of_append_left (by rw [names, ← map_append]; exact hnodup)),
    foldl_put_of_nodup hnodup] at hrun
  rw [hlist] at hstore
  exact ⟨_, _, hrun, hall, get_of_storeBatch hqueries husable hasked hread hstorable hstore⟩

/-- **A batch that is answered in full is complete, and is not asked again.** It returns for each package the cached
answer or what its own entry says, and the same batch at the same time returns the same from the cache alone. -/
theorem batch_twice {found : PlainPackage → Option (List Value)} {vulns : PlainPackage → List Value}
    (hqueries : AreQueries queries packages) (husable : IsUsable s packages found)
    (hanswers : (packages.filter fun p => (found p).isNone) ≠ [] →
      AnswersEach s (packages.filter fun p => (found p).isNone) vulns) :
    ∃ record after, on (batch queries) s = (.ok record, after) ∧ (names record).Nodup ∧
      record.Perm (packages.map (labelled fun p => (found p).getD (vulns p))) ∧
      ∃ again, on (batch queries) after = (.ok again, after) ∧ again.Perm record := by
  have hfirst : ∃ record after, on (batch queries) s = (.ok record, after) ∧
      record.Perm (packages.map (labelled fun p => (found p).getD (vulns p))) ∧
      ∀ p ∈ packages, after.cache.get after.clock p.toPackage = .ok (some ((found p).getD (vulns p))) := by
    by_cases hasked : (packages.filter fun p => (found p).isNone) = []
    · have hcached : ∀ p ∈ packages, s.cache.get s.clock p.toPackage = .ok (some ((found p).getD (vulns p))) := by
        intro p hp
        have hsome := filter_eq_nil_iff.mp hasked p hp
        obtain ⟨cached, hfound⟩ := Option.ne_none_iff_exists'.mp (mt Option.isNone_iff_eq_none.mpr hsome)
        rw [husable.get p hp, hfound]
        rfl
      exact ⟨_, s, batch_of_cached hqueries hcached, .refl _, hcached⟩
    · exact batch_of_answers hqueries husable rfl hasked (hanswers hasked)
  obtain ⟨record, after, hrun, hperm, hcached⟩ := hfirst
  have hnodup : (names record).Nodup := by
    refine (hperm.map Prod.fst).nodup_iff.mpr ?_
    rw [← names, names_labelled]
    exact hqueries.nodup_labels
  exact ⟨record, after, hrun, hnodup, hperm, _, batch_of_cached hqueries hcached, hperm.symm⟩

/-! ## One package with an entry -/

def queryOf (p : PlainPackage) : Value :=
  .obj [("ecosystem", .str p.ecosystem), ("package", .str p.name), ("version", .str p.version)]

def oneEntry : Record := [("results", .list [.obj [("vulns", .list [.obj [("id", .str "GHSA-2")]])]])]

def oneAdvisory : List Value :=
  [.obj [("vuln_id", .str "GHSA-2"), ("summary", .str "No description available"), ("cve_ids", .list []),
    ("severity", .str "unknown"), ("cvss_score", .null), ("advisory_urls", .list []), ("affected_ranges", .list [])]]

lemma answersEach_oneEntry (h : (on (send (batchRequest [p.toPackage])) s).1 = .ok (some oneEntry)) :
    AnswersEach s [p] fun _ => oneAdvisory := by
  refine ⟨oneEntry, fun _ => .obj [("vulns", .list [.obj [("id", .str "GHSA-2")]])], h, by decide +kernel, rfl, ?_⟩
  intro q _
  rfl

/-- One of two packages has just been cached, and for the other the server has an entry, at the second attempt. -/
def halfCached : LookupState where
  network := { replies := [.timeout, .answer 200 (.document (.obj oneEntry))] }
  cache := { ttl := .int 0, directory := some [(flask.file, .file (.text (entryText 1700000000.0 [.str "GHSA-1"])))] }
  clock := 1700000000.0

lemma isUsable_halfCached : IsUsable halfCached [.flask, .six] fun p =>
    if p.name = "Flask" then some [.str "GHSA-1"] else none := by
  have hlasting : halfCached.cache.IsLasting := ⟨.whole 0, rfl, rfl, by decide +kernel⟩
  have hclock : halfCached.clock.isFinite := by decide +kernel
  have hflask : halfCached.cache.entry? flask.file =
      some (.file (.text (entryText halfCached.clock [.str "GHSA-1"]))) := by
    simp [halfCached, entry?]
  have hsix : halfCached.cache.entry? six.file = none := by
    have hfolded : flask.folded ≠ six.folded := by decide +kernel
    have hne := mt (file_eq_iff noCollisions_flask (by simp) (by simp)).mp hfolded
    simp [halfCached, entry?, hne]
  refine ⟨hlasting, hclock, ?_, ?_⟩
  · simp only [forall_mem_cons]
    refine ⟨?_, ?_, fun _ hp => absurd hp not_mem_nil⟩
    · exact get_of_fresh hlasting hclock (by decide +kernel) flask.fileName_toPackage hflask
    · exact get_of_none six.fileName_toPackage hsix _
  · simp only [forall_mem_cons]
    refine ⟨fun hfound => absurd hfound (Option.some_ne_none _), fun _ => ?_, fun _ hp => absurd hp not_mem_nil⟩
    unfold isWritable
    rw [hsix]
    rfl

/-- The batch returns the cached answer and the new one, and then again. -/
theorem batch_twice_of_halfCached : ∃ record after,
    on (batch [queryOf .flask, queryOf .six]) halfCached = (.ok record, after) ∧
    record.Perm [(flask.toPackage.label, .list [.str "GHSA-1"]), (six.toPackage.label, .list oneAdvisory)] ∧
    ∃ again, on (batch [queryOf .flask, queryOf .six]) after = (.ok again, after) ∧ again.Perm record := by
  have hqueries : AreQueries [queryOf .flask, queryOf .six] [.flask, .six] :=
    ⟨rfl, by decide +kernel, by decide +kernel, noCollisions_flask.of_subset (by simp)⟩
  obtain ⟨record, after, hrun, -, hperm, hagain⟩ := batch_twice hqueries isUsable_halfCached
    fun _ => answersEach_oneEntry (p := .six) rfl
  exact ⟨record, after, hrun, hperm, hagain⟩

/-- A directory in the place of a package's file, and a server that has an entry as often as it is asked. -/
def blocked : LookupState where
  network := { replies := [.answer 200 (.document (.obj oneEntry)), .answer 200 (.document (.obj oneEntry))] }
  cache := { ttl := .int 86400, directory := some [(six.file, .directory)] }
  clock := 1700000000.0

/-- **Without a file that can be written a batch is asked again**, although it was answered in full. -/
theorem asksAgain_of_blocked : AreQueries [queryOf .six] [.six] ∧ blocked.cache.IsLasting ∧
    blocked.cache.get blocked.clock six.toPackage = .ok none ∧
    AnswersEach blocked [.six] (fun _ => oneAdvisory) ∧
    (on (batch [queryOf .six]) (on (batch [queryOf .six]) blocked).2).2.network.requests ≠
      (on (batch [queryOf .six]) blocked).2.network.requests := by
  have hfirst : (on (batch [queryOf .six]) blocked).2.network.requests.length = 1 := by decide +kernel
  have hsecond : (on (batch [queryOf .six]) (on (batch [queryOf .six]) blocked).2).2.network.requests.length = 2 := by
    decide +kernel
  have hqueries : AreQueries [queryOf .six] [.six] :=
    ⟨rfl, by decide +kernel, by decide +kernel, noCollisions_flask.of_subset (by simp)⟩
  refine ⟨hqueries, ⟨.whole 86400, rfl, rfl, by decide +kernel⟩, ?_, answersEach_oneEntry rfl, ?_⟩
  · unfold VulnCache.get
    rw [fileName_toPackage, ok_bind]
    simp [blocked, entry?]
  · intro hsame
    rw [hsame, hfirst] at hsecond
    cases hsecond

end CodeAudit.Lookup

import CodeAudit.Proofs.Baseline.Rescan
import CodeAudit.Scan.Entropy

/-!
# Secrets on lines that have moved

Secrets are searched line by line, so lines put in only move what stands below. A baseline tolerates five lines.

A text that stops where a line ends can be read apart from what follows (`unifyLineEnds_append`, `keptLines_append`).
Findings further below are the same with greater numbers (`forall₂_scanFrom`), and one that has moved within the
tolerance is recognised (`recognised_of_moved`).
-/

namespace CodeAudit

open Proofs List Record Value

variable {a cs : List Char} {r : Record}

/-! ## Texts that stop where a line ends -/

namespace Chars

/-- Whether a text stops where a line ends: it is empty, or its last character is a line feed. -/
def endsLine (cs : List Char) : Bool := cs.getLast?.all (· == '\n')

lemma endsLine_of_cons (h : endsLine (c :: cs)) : endsLine cs := by
  cases cs with
  | nil => rfl
  | cons d cs =>
    unfold endsLine at h ⊢
    rw [getLast?_cons_cons] at h
    exact h

lemma endsLine_cons (h : endsLine cs) : endsLine ('\n' :: cs) := by
  cases cs with
  | nil => rfl
  | cons d cs =>
    unfold endsLine at h ⊢
    rwa [getLast?_cons_cons]

lemma ne_nil_of_endsLine_cons (h : endsLine (c :: cs)) (hc : c ≠ '\n') : cs ≠ [] := by
  rintro rfl
  have heq : c = '\n' := by simpa [endsLine] using h
  exact hc heq

lemma keptLines_ne_nil (h : cs ≠ []) : keptLines cs ≠ [] := by
  cases cs with
  | nil => exact absurd rfl h
  | cons c cs =>
    unfold keptLines
    split
    · exact cons_ne_nil _ _
    · split <;> exact cons_ne_nil _ _

/-- The lines of two texts, the first of which stops where a line ends, are those of both. -/
lemma keptLines_append (h : endsLine a) (b : List Char) : keptLines (a ++ b) = keptLines a ++ keptLines b := by
  induction a with
  | nil => rfl
  | cons c cs ih =>
    have hrest := ih (endsLine_of_cons h)
    rw [cons_append, keptLines, keptLines, hrest]
    by_cases hc : c = '\n'
    · rw [if_pos (beq_iff_eq.mpr hc), if_pos (beq_iff_eq.mpr hc), cons_append]
    · rw [if_neg fun heq => hc (beq_iff_eq.mp heq), if_neg fun heq => hc (beq_iff_eq.mp heq)]
      -- something follows a character that is no line feed, so its line goes on within the first text
      cases hlines : keptLines cs with
      | nil => exact absurd hlines (keptLines_ne_nil (ne_nil_of_endsLine_cons h hc))
      | cons line lines => rfl

end Chars

namespace Text

open Chars (endsLine endsLine_of_cons endsLine_cons ne_nil_of_endsLine_cons)

/-- Line ends are made one kind in two texts apart, if the first stops where a line ends. -/
lemma unifyLineEnds_append (h : endsLine a) (b : List Char) :
    unifyLineEnds (a ++ b) = unifyLineEnds a ++ unifyLineEnds b := by
  fun_induction unifyLineEnds a with
  | case1 => rfl
  | case2 cs ih =>
    rw [cons_append, cons_append, unifyLineEnds, ih (endsLine_of_cons (endsLine_of_cons h))]
    rfl
  | case3 cs hnext ih =>
    -- a carriage return at the end of the first text would be no line feed
    obtain ⟨d, ds, rfl⟩ := exists_cons_of_ne_nil (ne_nil_of_endsLine_cons h (by decide))
    rw [cons_append, cons_append, unifyLineEnds, ← cons_append, ih (endsLine_of_cons h)]
    · rfl
    · rintro rest hrest
      exact hnext ds (by rw [(cons.inj hrest).1])
  | case4 c cs hpair hreturn ih =>
    rw [cons_append, unifyLineEnds, ih (endsLine_of_cons h)]
    · rfl
    · intro rest heq
      exact absurd heq hreturn
    · exact hreturn

lemma unifyLineEnds_cons_ne_nil (c : Char) (cs : List Char) : unifyLineEnds (c :: cs) ≠ [] := by
  unfold unifyLineEnds
  split <;> simp_all

lemma endsLine_unifyLineEnds (h : endsLine cs) : endsLine (unifyLineEnds cs) := by
  fun_induction unifyLineEnds cs with
  | case1 => rfl
  | case2 cs ih => exact endsLine_cons (ih (endsLine_of_cons (endsLine_of_cons h)))
  | case3 cs hnext ih => exact endsLine_cons (ih (endsLine_of_cons h))
  | case4 c cs hpair hreturn ih =>
    cases cs with
    | nil => exact h
    | cons d ds =>
      have hrest := ih (endsLine_of_cons h)
      obtain ⟨e, es, hes⟩ := exists_cons_of_ne_nil (unifyLineEnds_cons_ne_nil d ds)
      rw [hes] at hrest ⊢
      unfold endsLine at hrest ⊢
      rwa [getLast?_cons_cons]

/-- The lines of a text as a file is read: every line end counts, of whatever kind. -/
def linesRead (cs : List Char) : List (List Char) := Chars.keptLines (unifyLineEnds cs)

lemma linesRead_append (h : endsLine a) (b : List Char) : linesRead (a ++ b) = linesRead a ++ linesRead b := by
  unfold linesRead
  rw [unifyLineEnds_append h, Chars.keptLines_append (endsLine_unifyLineEnds h)]

end Text

/-! ## Findings that have moved -/

namespace Baseline

def onLine (n : Nat) (r : Record) : Record := put r "line" (.nat n)

/-- A finding is further below by so many lines. -/
def Moved (k : Nat) (r s : Record) : Prop := ∃ n : Nat, comparedLine r = .nat n ∧ s = onLine (n + k) r

/-- A finding stands on a line and can be compared. -/
def Located (r : Record) : Prop := (∃ n : Nat, comparedLine r = .nat n) ∧ ∃ p, printOf (.obj r) = .ok p

lemma comparedLine_onLine (n : Nat) (r : Record) : comparedLine (onLine n r) = .nat n := by
  unfold comparedLine onLine Record.getD
  rw [get?_put, if_pos rfl]
  rfl

lemma printOf_onLine (h : printOf (.obj r) = .ok p) (n : Nat) :
    printOf (.obj (onLine n r)) = .ok { p with line := (nat n).text } := by
  have hother : ∀ name, name ≠ "line" → ∀ default, (onLine n r).getD name default = r.getD name default := by
    intro name hname default
    unfold onLine Record.getD
    rw [get?_put, if_neg hname]
  have hrule : ruleOf (onLine n r) = ruleOf r := by
    unfold ruleOf
    rw [hother "type" (by decide), hother "rule_id" (by decide)]
  have hmessage : messageOf (onLine n r) = messageOf r := by
    unfold messageOf
    rw [hother "description" (by decide), hother "message" (by decide)]
  have hline : (onLine n r).getD "line" (.str "") = .nat n := by
    unfold onLine Record.getD
    rw [get?_put, if_pos rfl]
    rfl
  simp only [printOf, fields, namedFields, ok_bind] at h ⊢
  rw [hother "file" (by decide), hrule, hmessage, hline]
  obtain ⟨file, hfile, h⟩ := of_bind h
  obtain ⟨rule, hrule, h⟩ := of_bind h
  obtain ⟨message, hmessage, h⟩ := of_bind h
  rw [hfile, hrule, hmessage, ← Except.ok.inj h]
  rfl

/-- Lines that are whole numbers have a distance, which is tolerated up to five. -/
lemma atLeast_distance (d : Nat) : standardTolerance.atLeast (.int d) = .ok (decide (d ≤ 5)) :=
  (atLeast_int 5 d).trans (congrArg Except.ok (decide_eq_decide.mpr (by omega)))

lemma near_of_le {a b : Int} (h : (a - b).natAbs ≤ 5) : Near (.int a) (.int b) := by
  refine ⟨.int (a - b).natAbs, rfl, ?_⟩
  rw [atLeast_distance, decide_eq_true h]

lemma near_or_far (a b : Int) : Near (.int a) (.int b) ∨ Far (.int a) (.int b) := by
  by_cases h : (a - b).natAbs ≤ 5
  · exact .inl (near_of_le h)
  · refine .inr ⟨.int (a - b).natAbs, rfl, ?_⟩
    rw [atLeast_distance, decide_eq_false h]

/-- Where each record is either the one or past, any that is the one is reached. -/
lemma reached_of_mem (hall : ∀ e ∈ among, here e ∨ past e)
    (hr : r ∈ among) (hhere : here r) : Reached here past among := by
  induction among with
  | nil => cases hr
  | cons e rest ih =>
    rw [reached_cons]
    rcases hall e mem_cons_self with he | he
    · exact .inl he
    · rcases mem_cons.mp hr with rfl | hrest
      · exact .inl hhere
      · exact .inr ⟨he, ih (fun x hx => hall x (mem_cons_of_mem _ hx)) hrest⟩

/-- **A finding that has moved within the tolerance is recognised**, wherever else findings with its key stand. -/
lemma recognised_of_moved (hlocated : ∀ e ∈ among, Located e) (hr : r ∈ among) (hk : k ≤ 5) (hf : Moved k r f) :
    Recognised f among := by
  obtain ⟨n, hn, rfl⟩ := hf
  obtain ⟨p, hp⟩ := (hlocated r hr).2
  refine ⟨_, printOf_onLine hp (n + k), .inr (reached_of_mem ?_ hr ⟨⟨p, hp, rfl⟩, ?_⟩)⟩
  · intro e he
    obtain ⟨m, hm⟩ := (hlocated e he).1
    rw [comparedLine_onLine, hm]
    rcases near_or_far (n + k : Nat) m with hnear | hfar
    · by_cases hkey : HasKey e p.key
      · exact .inl ⟨hkey, hnear⟩
      · exact .inr fun h => absurd h hkey
    · exact .inr fun _ => hfar
  · rw [comparedLine_onLine, hn]
    exact near_of_le (by omega)

end Baseline

/-! ## Findings of lines -/

namespace Secrets

open Baseline (Moved Located onLine comparedLine)

variable {line : List Char} {file : String} {o : Options}

def scanFrom (o : Options) (file : String) (start : Nat) (lines : List (List Char)) : List Record :=
  (lines.zipIdx start).flatMap fun (line, n) => scanLine o file n line

lemma scanFrom_cons (o : Options) (file : String) (start : Nat) (line : List Char) (lines : List (List Char)) :
    scanFrom o file start (line :: lines) = scanLine o file start line ++ scanFrom o file (start + 1) lines := by
  unfold scanFrom
  rw [zipIdx_cons, flatMap_cons]

lemma scanFrom_append (o : Options) (file : String) (start : Nat) (above below : List (List Char)) :
    scanFrom o file start (above ++ below) =
      scanFrom o file start above ++ scanFrom o file (start + above.length) below := by
  unfold scanFrom
  rw [zipIdx_append, flatMap_append]

lemma randomTexts_eq (line : List Char) (number other file : Value) :
    randomTexts line other file = (randomTexts line number file).map fun f => { f with line := other } := by
  unfold randomTexts
  rw [map_filterMap]
  refine filterMap_congr fun m _ => ?_
  cases m.group? 1 with
  | none => rfl
  | some candidate =>
    dsimp only [Option.bind_eq_bind, Option.bind_some]
    split
    · rfl
    · cases randomAs? candidate <;> rfl

lemma place_of_mem_randomTexts {number file : Value}
    (h : e ∈ randomTexts line number file) : e.file = file ∧ e.line = number := by
  obtain ⟨m, -, hm⟩ := mem_filterMap.mp h
  obtain ⟨candidate, -, hm⟩ := Option.bind_eq_some_iff.mp hm
  split at hm
  · cases hm
  · obtain ⟨encoding, -, hm⟩ := Option.bind_eq_some_iff.mp hm
    cases hm
    exact ⟨rfl, rfl⟩

lemma scanLine_eq (o : Options) (file : String) (n m : Nat) (line : List Char) :
    scanLine o file m line = (scanLine o file n line).map (onLine m) := by
  unfold scanLine
  split
  · rfl
  · rw [map_append, map_filterMap]
    congr 1
    · refine filterMap_congr fun f _ => ?_
      rw [Option.map_map]
      rfl
    · split
      · rw [randomTexts_eq line (.nat n) (.nat m), map_map, map_map]
        rfl
      · rfl

lemma located_of_mem_scanLine
    (h : r ∈ scanLine o file n line) : comparedLine r = .nat n ∧ ∃ p, Baseline.printOf (.obj r) = .ok p := by
  unfold scanLine at h
  split at h
  · cases h
  · rcases mem_append.mp h with h | h
    · obtain ⟨f, -, hf⟩ := mem_filterMap.mp h
      obtain ⟨secret, -, rfl⟩ := Option.map_eq_some_iff.mp hf
      exact ⟨rfl, _, rfl⟩
    · split at h
      · obtain ⟨e, he, rfl⟩ := mem_map.mp h
        obtain ⟨hfile, hline⟩ := place_of_mem_randomTexts he
        refine ⟨hline, ?_⟩
        simp only [Baseline.printOf, fields, namedFields, ok_bind, EntropyFinding.toRecord]
        change ∃ p, Baseline.joinable e.file >>= _ = .ok p
        rw [hfile]
        exact ⟨_, rfl⟩
      · cases h

lemma forall₂_scanFrom (o : Options) (file : String) (start k : Nat) (lines : List (List Char)) :
    Forall₂ (Moved k) (scanFrom o file start lines) (scanFrom o file (start + k) lines) := by
  induction lines generalizing start with
  | nil => exact .nil
  | cons line lines ih =>
    rw [scanFrom_cons, scanFrom_cons, scanLine_eq o file start (start + k), Nat.add_right_comm start k 1]
    refine rel_append ?_ (ih (start + 1))
    rw [forall₂_map_right_iff]
    exact forall₂_same.mpr fun r hr => ⟨start, (located_of_mem_scanLine hr).1, rfl⟩

lemma located_of_mem_scanFrom (h : r ∈ scanFrom o file start lines) : Located r := by
  obtain ⟨⟨line, n⟩, -, hr⟩ := mem_flatMap.mp h
  obtain ⟨hline, hprint⟩ := located_of_mem_scanLine hr
  exact ⟨⟨n, hline⟩, hprint⟩

/-! ## Lines that are put between others -/

def Holds (files : FileTree) (path : String) (text : List Char) : Prop :=
  files.content path = .ok (.text (String.ofList text))

lemma scanFile_of_holds {text : List Char} (h : Holds files path text)
    (o : Options) : scanFile o files path = scanFrom o path 1 (Text.linesRead text) := by
  unfold scanFile FileTree.foundIn
  rw [FileTree.text_of_content h, String.toList_ofList]
  dsimp only
  rw [String.toList_ofList]
  rfl

/-- Lines without secrets between others move the findings below them, and change nothing else. -/
lemma forall₂_of_inserted (hquiet : scanFrom o file 1 block = []) (above below : List (List Char)) :
    Forall₂ (fun r s => ∃ k, k ≤ block.length ∧ Moved k r s) (scanFrom o file 1 (above ++ below))
      (scanFrom o file 1 (above ++ (block ++ below))) := by
  have hnothing : scanFrom o file (1 + above.length) block = [] := by
    have hmoved := forall₂_scanFrom o file 1 above.length block
    rw [hquiet] at hmoved
    exact forall₂_nil_left_iff.mp hmoved
  rw [scanFrom_append, scanFrom_append, scanFrom_append, hnothing, nil_append]
  refine rel_append ?_ ?_
  · exact (forall₂_scanFrom o file 1 0 above).imp fun r s h => ⟨0, Nat.zero_le _, h⟩
  · exact (forall₂_scanFrom o file (1 + above.length) block.length below).imp fun r s h => ⟨_, Nat.le_refl _, h⟩

/-- **Lines without secrets make nothing new.** Up to five of them, put where a line ends or at the start, leave every
finding known and their number as it was, whatever is searched for. -/
theorem nothing_new_of_inserted (o : Options) (path : String) {before after alone : FileTree}
    {above block below : List Char} (habove : Chars.endsLine above = true) (hblock : Chars.endsLine block = true)
    (hbefore : Holds before path (above ++ below)) (hafter : Holds after path (above ++ block ++ below))
    (halone : Holds alone path block) (hfew : (Text.linesRead block).length ≤ 5)
    (hquiet : scanFile o alone path = []) :
    Baseline.split (.list ((scanFile o before path).map .obj)) ((scanFile o after path).map .obj) =
        .ok ([], (scanFile o after path).map .obj) ∧
      (scanFile o after path).length = (scanFile o before path).length := by
  rw [scanFile_of_holds halone] at hquiet
  rw [scanFile_of_holds hbefore, scanFile_of_holds hafter, List.append_assoc, Text.linesRead_append habove,
    Text.linesRead_append habove, Text.linesRead_append hblock]
  have hmoved := forall₂_of_inserted hquiet (Text.linesRead above) (Text.linesRead below)
  refine ⟨Baseline.split_eq_nil_iff.mpr ?_, hmoved.length_eq.symm⟩
  have hlocated : ∀ r ∈ scanFrom o path 1 (Text.linesRead above ++ Text.linesRead below), Located r :=
    fun r hr => located_of_mem_scanFrom hr
  obtain ⟨prints, hprints⟩ := exists_mapM_eq_ok fun r hr => (hlocated r hr).2
  have hareprints : Baseline.ArePrints _ prints := mapM_eq_ok_iff.mp hprints
  refine ⟨_, Baseline.ofFindings_eq_ok_iff.mpr ⟨?_, prints, hareprints, rfl⟩, ?_⟩
  · intro r hr
    obtain ⟨n, hn⟩ := (hlocated r hr).1
    rw [hn]
    rfl
  · intro v hv
    obtain ⟨f, hf, rfl⟩ := List.mem_map.mp hv
    obtain ⟨r, hr, k, hk, hrf⟩ := exists_mem_of_forall₂ hmoved hf
    exact (Baseline.has_knownOf_iff hareprints f).mpr
      (Baseline.recognised_of_moved hlocated hr (Nat.le_trans hk hfew) hrf)

/-- A secret of a format that is searched for is found, unless its line is a comment. -/
lemma scanLine_ne_nil (hf : f ∈ o.formats) (hcode : isComment line = false) (hsecret : (f.secret? line).isSome)
    (file : String) (n : Nat) : scanLine o file n line ≠ [] := by
  obtain ⟨secret, hsecret⟩ := Option.isSome_iff_exists.mp hsecret
  unfold scanLine
  rw [hcode, if_neg Bool.false_ne_true]
  intro hnil
  have hnone := filterMap_eq_nil_iff.mp (append_eq_nil_iff.mp hnil).1 f hf
  rw [hsecret, Option.map_some] at hnone
  cases hnone

def oneFile (text : List Char) : FileTree := { entries := [(["a.py"], .file (.text (String.ofList text)))] }

lemma holds_oneFile (text : List Char) : Holds (oneFile text) "a.py" text := rfl

def shebangLine : List Char := "#!/usr/bin/python3\n".toList

def passwordLine : List Char := "pwd = 'opensesame'\n".toList

def commentLines : List Char := "# one\n# two\n# pwd = 'opensesame'\n# four\n# five\n".toList

/-- A password that comes to stand five lines further below is still found, and known. -/
theorem password_known_below_commentLines :
    scanFile {} (oneFile (shebangLine ++ commentLines ++ passwordLine)) "a.py" ≠ [] ∧
      Baseline.split (.list ((scanFile {} (oneFile (shebangLine ++ passwordLine)) "a.py").map .obj))
          ((scanFile {} (oneFile (shebangLine ++ commentLines ++ passwordLine)) "a.py").map .obj) =
        .ok ([], (scanFile {} (oneFile (shebangLine ++ commentLines ++ passwordLine)) "a.py").map .obj) := by
  have hquiet : scanFile {} (oneFile commentLines) "a.py" = [] := List.isEmpty_iff.mp (by decide +kernel)
  obtain ⟨hknown, hlength⟩ := nothing_new_of_inserted {} "a.py" (by decide) (by decide)
    (holds_oneFile (shebangLine ++ passwordLine)) (holds_oneFile (shebangLine ++ commentLines ++ passwordLine))
    (holds_oneFile commentLines) (by decide) hquiet
  refine ⟨fun hnil => ?_, hknown⟩
  have hbefore : scanFile {} (oneFile (shebangLine ++ passwordLine)) "a.py" = [] := by
    rw [hnil] at hlength
    exact List.length_eq_zero_iff.mp hlength.symm
  have hlines : Text.linesRead (shebangLine ++ passwordLine) = [shebangLine, passwordLine] := by decide
  rw [scanFile_of_holds (holds_oneFile _), hlines, scanFrom_cons, scanFrom_cons, List.append_eq_nil_iff,
    List.append_eq_nil_iff] at hbefore
  exact scanLine_ne_nil (List.getElem_mem (show 18 < formats.length by decide)) (by decide) (by decide +kernel) _ _
    hbefore.2.1

end Secrets

end CodeAudit

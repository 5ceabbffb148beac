import CodeAudit.Proofs.Baseline.Rescan

/-!
# Findings out of a saved baseline

A saved baseline holds an entry for each finding. The entries come back in order and as JSON carries them; those of
findings that are data come back as they were (`load_of_save`). One line or many makes no difference.
-/

namespace CodeAudit

open Proofs Proofs.Steps List Text String JsonReport

namespace JsonReport

open Json

variable {name before : String} {v f : Value}

/-! ## Entries of data -/

/-- Some fields hold data, under names from a list and in its order. -/
structure HoldsData (among : List String) (fields : Record) : Prop where
  names : (Record.names fields).Sublist among
  data : ∀ f ∈ fields, isData f.2

variable {among more : List String} {a b finding : Record}

lemma HoldsData.append (ha : HoldsData among a) (hb : HoldsData more b) : HoldsData (among ++ more) (a ++ b) := by
  refine ⟨?_, forall_mem_append.mpr ⟨ha.data, hb.data⟩⟩
  rw [Record.names, map_append]
  exact ha.names.append hb.names

lemma HoldsData.of_sublist (h : HoldsData among a) (hsub : among.Sublist more) : HoldsData more a :=
  ⟨h.names.trans hsub, h.data⟩

lemma holdsData_nil : HoldsData [] [] := ⟨.slnil, nofun⟩

lemma HoldsData.cons (hv : isData v) (ha : HoldsData among a) : HoldsData (name :: among) ((name, v) :: a) :=
  ⟨ha.names.cons_cons name, forall_mem_cons.mpr ⟨hv, ha.data⟩⟩

lemma isData_of_get? (hdata : isData (.obj finding)) (h : finding.get? name = some v) : isData v := by
  unfold Record.get? at h
  obtain ⟨field, hfield, rfl⟩ := Option.map_eq_some_iff.mp h
  exact ((isData_obj.mp hdata).2 field (mem_of_find?_eq_some hfield)).2

lemma isData_getD (hdata : isData (.obj finding)) (name : String) {default : Value}
    (hdefault : isData default) : isData (finding.getD name default) := by
  unfold Record.getD
  cases h : finding.get? name with
  | none => exact hdefault
  | some v => exact isData_of_get? hdata h

lemma holdsData_copied (hdata : isData (.obj finding)) (name newName : String) :
    HoldsData [newName] (copied finding name newName) := by
  unfold copied
  cases h : finding.get? name with
  | none => exact holdsData_nil.of_sublist (nil_sublist _)
  | some v => exact .cons (isData_of_get? hdata h) holdsData_nil

lemma holdsData_location (hdata : isData (.obj finding)) : HoldsData ["file", "line"] (location finding) := by
  unfold location
  refine HoldsData.append (show HoldsData ["file"] _ from ?_) (show HoldsData ["line"] _ from ?_)
  · cases h : finding.get? "filename" with
    | none => exact holdsData_copied hdata "file" "file"
    | some v => exact .cons (isData_of_get? hdata h) holdsData_nil
  · cases h : finding.get? "line" with
    | none => exact holdsData_copied hdata "sink_line" "line"
    | some v => exact .cons (isData_of_get? hdata h) holdsData_nil

def messageNames : List String :=
  ["message", "sink", "variable", "trace", "call_chain", "source_function", "sink_function", "function", "complexity"]

lemma isData_after (hbefore : isEncodable before) (hv : isData v) : isData (.str (before ++ v.text)) := by
  rw [isData, beq_iff_eq]
  exact mendedText_after hbefore (mendedText_text hv)

lemma isData_around {between after : String} {w : Value} (hbefore : isEncodable before)
    (hbetween : isEncodable between) (hne : between ≠ "") (hafter : isEncodable after)
    (hsome : after ≠ "") (hv : isData v) (hw : isData w) :
    isData (.str (before ++ v.text ++ between ++ w.text ++ after)) := by
  have hfirst := mendedText_after hbefore (mendedText_text hv)
  have hboth := mendedText_between hbetween hne hfirst (mendedText_text hw)
  have hall := mendedText_between hafter hsome hboth (show mendedText "" = "" from rfl)
  rw [append_empty] at hall
  rw [isData, beq_iff_eq]
  exact hall

lemma holdsData_message (hdata : isData (.obj finding)) (kind : Value) :
    HoldsData messageNames (message finding kind) := by
  have hunknown : ∀ name, isData (finding.getD name (.str "unknown")) :=
    fun name => isData_getD hdata name (by decide)
  have hmark : ∀ name, isData (finding.getD name (.str "?")) := fun name => isData_getD hdata name (by decide)
  unfold message
  split
  · -- a tainted variable
    refine HoldsData.of_sublist (HoldsData.append ?_ (holdsData_copied hdata "trace" "trace"))
      (show (["message", "sink", "variable"] ++ ["trace"]).Sublist messageNames by decide)
    exact .cons (isData_around (by decide) (by decide) (by decide) (by decide) (by decide) (hunknown _) (hunknown _))
      (.cons (hunknown _) (.cons (hunknown _) holdsData_nil))
  · -- a flow between functions
    refine HoldsData.of_sublist (HoldsData.append (HoldsData.append (HoldsData.append ?_
      (holdsData_copied hdata _ _)) (holdsData_copied hdata _ _)) (holdsData_copied hdata _ _))
      (show (["message", "sink", "variable"] ++ ["call_chain"] ++ ["source_function"] ++ ["sink_function"]).Sublist
        messageNames by decide)
    exact .cons (isData_around (by decide) (by decide) (by decide) (by decide) (by decide) (hmark _) (hmark _))
      (.cons (hunknown _) (.cons (hunknown _) holdsData_nil))
  · refine HoldsData.of_sublist ?_ (show ["message", "function"].Sublist messageNames by decide)
    exact .cons (isData_after (by decide) (hunknown _)) (.cons (hunknown _) holdsData_nil)
  · refine HoldsData.of_sublist ?_ (show ["message", "variable"].Sublist messageNames by decide)
    exact .cons (isData_after (by decide) (hmark _)) (.cons (hunknown _) holdsData_nil)
  · refine HoldsData.of_sublist ?_ (show ["message", "complexity"].Sublist messageNames by decide)
    exact .cons (isData_after (by decide) (hmark _)) (.cons (isData_getD hdata _ (by decide)) holdsData_nil)
  · -- any other type: the message of the finding, or the whole finding as text
    refine HoldsData.of_sublist (.cons (isData_getD hdata _ ?_) holdsData_nil)
      (show ["message"].Sublist messageNames by decide)
    rw [isData, beq_iff_eq]
    exact mendedText_text hdata

def entryNames : List String := ["id", "type", "severity"] ++ (["file", "line"] ++ messageNames ++ ["confidence"])

lemma isData_str (h : isEncodable s) : isData (.str s) := by
  rw [isData, beq_iff_eq]
  exact mendedText_of_isEncodable h

lemma isEncodable_id (e : Entry) : isEncodable e.id := by
  have hdigits : isEncodable (toString (e.number : Int).natAbs) := by
    refine ArePlain.isEncodable ?_
    rw [Nat.toString_eq_ofList_toDigits, toList_ofList]
    exact (areDigits_toDigits _).arePlain
  have hzeros : ∀ n, isEncodable (ofList (replicate n '0')) := by
    intro n
    refine ArePlain.isEncodable fun c hc => ?_
    rw [toList_ofList] at hc
    rw [eq_of_mem_replicate hc]
    decide
  have hsign : ¬ (e.number : Int) < 0 := by omega
  unfold Entry.id zeroPadded
  dsimp only
  rw [if_neg hsign, isEncodable_append, isEncodable_append, isEncodable_append, hdigits, hzeros]
  decide

/-- The fixed fields of an entry come before its details. -/
lemma holdsData_toRecord {e : Entry} (hkind : isData e.kind) (hdetails : HoldsData among e.details) :
    HoldsData (["id", "type", "severity"] ++ among) e.toRecord := by
  have hword : isEncodable e.level.word := by cases e.level <;> decide
  exact .append (.cons (isData_str (isEncodable_id e)) (.cons hkind (.cons (isData_str hword) holdsData_nil))) hdetails

lemma eq_obj_of_fields (hdata : isData f) {finding : Record} (h : f.fields = .ok finding) : f = .obj finding := by
  cases f with
  | obj fields =>
    cases h
    rfl
  | map entries =>
    rw [isData] at hdata
    cases hdata
  | _ => cases h

/-- **The entry of a finding that is data is data.** -/
lemma isData_toRecord (hdata : isData f) {number : Nat} {e : Entry} (h : entry number f = .ok e) :
    isData (.obj e.toRecord) := by
  unfold entry at h
  obtain ⟨finding, hfields, h⟩ := of_bind h
  obtain ⟨level, -, h⟩ := of_bind h
  cases h
  rw [eq_obj_of_fields hdata hfields] at hdata
  generalize hkind : finding.getD "type" (.str "unknown") = kind
  have hdetails := ((holdsData_location hdata).append (holdsData_message hdata kind)).append
    (holdsData_copied hdata "vuln_score" "confidence")
  have hkindData : isData kind := hkind ▸ isData_getD hdata "type" (by decide)
  have hentry : HoldsData entryNames (Entry.toRecord { number, kind, level, details := _ }) :=
    holdsData_toRecord hkindData hdetails
  refine isData_obj.mpr ⟨hentry.names.nodup (by decide), fun field hfield => ⟨?_, hentry.data field hfield⟩⟩
  have hname := hentry.names.subset (mem_map_of_mem hfield)
  have hplain : ∀ name ∈ entryNames, isEncodable name := by decide
  exact mendedText_of_isEncodable (hplain _ hname)

lemma entriesFrom_eq_mapM (number : Nat) (findings : List Value) :
    entriesFrom number findings = (findings.zipIdx number).mapM fun f => entry f.2 f.1 := by
  induction findings generalizing number with
  | nil => rfl
  | cons f findings ih =>
    rw [entriesFrom, ih, zipIdx_cons, mapM_cons]

end JsonReport

lemma Json.Layout.isSound_compact : Layout.compact.IsSound := ⟨⟨[], rfl, nofun⟩, ⟨[], rfl, nofun⟩⟩

/-- A report is read as it is carried, whatever its layout. -/
lemma Json.read_of_writeWithin (hl : l.IsSound) (h : writeWithin l v = .ok s) : read s = .ok (carried v) := by
  obtain ⟨hfits, rfl⟩ := writeWithin_eq_ok_iff.mp h
  rw [read_write hl v (append_nil _).symm (by simp), kept_of_fits hfits]

namespace Baseline

/-! ## Saving and loading -/

/-- What has been saved is loaded as JSON carries it. -/
lemma load_carried {host after : Host} (h : on (save path facts findings) host = (.ok (), after)) :
    ∃ entries, (findings.zipIdx 1).mapM (fun f => entry f.2 f.1) = .ok entries ∧
      load after.files path = .ok (.list (entries.map fun e => Json.carried (.obj e.toRecord))) := by
  obtain ⟨d, files, hd, hfits, hfiles, rfl⟩ := on_save_eq_ok_iff.mp h
  obtain ⟨entries, hentries, hpart⟩ := part_carried_of_document hd
  rw [entriesFrom_eq_mapM] at hentries
  exact ⟨entries, hentries, load_of_savedText hfits (text_of_writeText hfiles) hpart⟩

def escapedFinding : Record :=
  [("type", .str "hardcoded_secret"), ("file", .str "a\"b\\c.py"), ("line", .int 3),
    ("variable", .list [.str "clé\n", .null, .obj [("\t", .bool true)]])]

/-- A finding whose message is a character in two halves. -/
def halvedFinding : Record := [("message", .str (ofList [loneSurrogate 0xD83D, loneSurrogate 0xDE00]))]

end Baseline

end CodeAudit

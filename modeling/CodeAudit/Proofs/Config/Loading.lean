import CodeAudit.Proofs.Config.Merging
import CodeAudit.Proofs.Dependencies.Shapes

/-!
# Settings that are not supported

The settings in a file are checked, laid over the usual ones and taken apart for a scan. The checks only warn, so the
scan gets what they warn of (`ofRecord_eq_ok`). A value that cannot be looked up ends the checks, and a section that is
no mapping ends the scan.
-/

namespace CodeAudit.Config

open Proofs List Value Record ScanSettings

variable {files : FileTree} {project path : String} {given v : Value} {file o : Record}
  {setting : Setting} {name : String} {settings : Record} {c : Value}

/-! ## Settings with a choice of values -/

structure Setting where
  sectionName : String
  field : String
  default : Value
  /-- Whether the checks can look at a value without a fault. -/
  isCheckable : Value → Bool
  isSupported : Value → Bool
  of : ScanSettings → Value

/-- A setting that is one of some words. -/
def Setting.word (sectionName field default : String) (words : List String) (of : ScanSettings → Value) : Setting where
  sectionName := sectionName
  field := field
  default := .str default
  isCheckable v := !v.truthy || v.isLookedUp
  isSupported v := v.isWordOf words
  of := of

def Setting.severity : Setting := .word "severity" "minimum" "low" severities minimumSeverity

def Setting.format : Setting := .word "output" "format" "text" formats outputFormat

def Setting.languages : Setting where
  sectionName := "scan"
  field := "languages"
  default := .texts ["python", "javascript"]
  isCheckable
    | .list items => items.all isLookedUp
    | _ => true
  isSupported
    | .list items => items.all (·.isWordOf Config.languages)
    | _ => false
  of := ScanSettings.languages

def choices : List Setting := [.languages, .severity, .format]

/-- What a file has in a section. -/
def inSection? (file : Record) (sectionName field : String) : Option Value :=
  (file.get? sectionName).bind fun v => v.namedFields.bind (get? · field)

def Setting.given? (setting : Setting) (file : Record) : Option Value := inSection? file setting.sectionName setting.field

/-- The sections that a scan takes its settings from. -/
def sections : List String := ["scan", "rules", "severity", "ml", "output"]

/-! ## Checks -/

lemma Setting.isCheckable_of_isSupported (hchoice : setting ∈ choices)
    (h : setting.isSupported v) : setting.isCheckable v := by
  have hword : ∀ {words}, v.isWordOf words → (!v.truthy || v.isLookedUp) := fun hv => by
    rw [isLookedUp_of_isWordOf hv, Bool.or_true]
  simp only [choices, mem_cons, not_mem_nil, or_false] at hchoice
  rcases hchoice with rfl | rfl | rfl
  · cases v with
    | list items => exact all_eq_true.mpr fun item hitem => isLookedUp_of_isWordOf (all_eq_true.mp h item hitem)
    | _ => cases h
  · exact hword h
  · exact hword h

lemma Setting.isSupported_default (h : setting ∈ choices) : setting.isSupported setting.default := by
  simp only [choices, mem_cons, not_mem_nil, or_false] at h
  rcases h with rfl | rfl | rfl <;> decide

lemma isOk_isUnsupported (v : Value) (words : List String) : (isUnsupported v words).isOk = v.isLookedUp := by
  unfold isUnsupported
  split
  · next h => exact h.symm
  · next h => exact (eq_false_of_ne_true h).symm

lemma isOk_checkField (file : Record) (sectionName field : String) (words : List String) (warning : String → Warning) :
    (checkField file sectionName field words warning).isOk =
      ((inSection? file sectionName field).all fun v => !v.truthy || v.isLookedUp) := by
  unfold checkField inSection? Record.getD
  cases file.get? sectionName with
  | none => rfl
  | some v =>
    dsimp only [Option.getD_some, Option.bind_some]
    cases v.namedFields with
    | none => rfl
    | some fields =>
      dsimp only [Option.bind_some]
      cases fields.get? field with
      | none => rfl
      | some v =>
        dsimp only [Option.getD_some, Option.all_some]
        by_cases h : v.truthy
        · simp only [h]
          exact (isOk_bind_pure _ _).trans (isOk_isUnsupported v words)
        · simp only [eq_false_of_ne_true h]
          rfl

lemma isOk_checkLanguages (file : Record) :
    (checkLanguages file).isOk = (inSection? file "scan" "languages").all Setting.languages.isCheckable := by
  unfold checkLanguages inSection? Record.getD
  cases file.get? "scan" with
  | none => rfl
  | some v =>
    dsimp only [Option.getD_some, Option.bind_some]
    cases v.namedFields with
    | none => rfl
    | some fields =>
      dsimp only [Option.bind_some]
      cases fields.get? "languages" with
      | none => rfl
      | some v =>
        cases v with
        | list items =>
          exact (isOk_bind_pure _ _).trans (isOk_filterM (fun v => isOk_isUnsupported v languages) items)
        | _ => rfl

lemma isOk_warnings (file : Record) (path : String) :
    (warnings file path).isOk = choices.all fun setting => (setting.given? file).all setting.isCheckable := by
  unfold warnings
  refine (isOk_bind (isOk_checkLanguages file) fun _ => isOk_bind (isOk_checkField file _ _ _ _) fun _ =>
    (isOk_bind_pure _ _).trans (isOk_checkField file _ _ _ _)).trans ?_
  simp only [choices, all_cons, all_nil, Bool.and_true]
  rfl

/-! ## What is laid over the usual settings -/

/-- The entries of a mapping whose names are texts. -/
def textual (entries : List (Value × Value)) : Record :=
  entries.filterMap fun
    | (.str name, value) => some (name, value)
    | _ => none

lemma same_str_right (v : Value) (s : String) : v.same (.str s) = match v with
    | .str t => t == s
    | _ => false := by
  cases v <;> simp [same, number?]

variable (base : List (Value × Value))

lemma textual_putEntry_str (s : String) (w : Value) : textual (putEntry base (.str s) w) = (textual base).put s w := by
  have hhas : base.any (·.1.same (.str s)) = (textual base).has s := by
    unfold textual has
    rw [any_filterMap]
    congr 1
    funext ⟨key, value⟩
    rw [same_str_right]
    cases key <;> rfl
  unfold putEntry put
  rw [hhas]
  split
  · unfold textual
    rw [filterMap_map, map_filterMap]
    refine filterMap_congr fun entry _ => ?_
    obtain ⟨key, value⟩ := entry
    rw [Function.comp_apply, same_str_right]
    cases key with
    | str t => by_cases h : t = s <;> simp [h]
    | _ => rfl
  · exact filterMap_append

lemma textual_putEntry {name : Value} (hname : ∀ s, name ≠ .str s) (base : List (Value × Value)) (w : Value) :
    textual (putEntry base name w) = textual base := by
  have hother : ∀ s, (str s).same name = false := by
    intro s
    cases name with
    | str t => exact absurd rfl (hname t)
    | _ => simp [same, number?]
  unfold putEntry textual
  split
  · rw [filterMap_map]
    refine filterMap_congr fun entry _ => ?_
    obtain ⟨key, value⟩ := entry
    rw [Function.comp_apply]
    cases hsame : key.same name with
    | false => rw [if_neg Bool.false_ne_true]
    | true =>
      rw [if_pos rfl]
      cases key with
      | str t => exact absurd hsame (Bool.eq_false_iff.mp (hother t))
      | _ => rfl
  · rw [filterMap_append]
    cases name with
    | str t => exact absurd rfl (hname t)
    | _ => exact append_nil _

lemma underName?_str (s : String) : underName? base (.str s) = (textual base).get? s := by
  induction base with
  | nil => rfl
  | cons entry base ih =>
    obtain ⟨key, value⟩ := entry
    unfold underName? at ih ⊢
    rw [find?_cons, same_str_right]
    cases key with
    | str t =>
      change _ = get? ((t, value) :: textual base) s
      rw [get?_cons, ← ih]
      by_cases h : t = s
      · simp [h]
      · dsimp only
        rw [if_neg h, beq_eq_false_iff_ne.mpr h]
    | _ => exact ih

lemma textual_mergeEntries (entries : List (Value × Value)) :
    textual (mergeEntries base entries) = mergeFields (textual base) (textual entries) := by
  induction entries generalizing base with
  | nil => rfl
  | cons entry entries ih =>
    obtain ⟨name, value⟩ := entry
    rw [mergeEntries, ih]
    by_cases hname : ∃ s, name = .str s
    · obtain ⟨s, rfl⟩ := hname
      rw [textual_putEntry_str, underName?_str]
      rfl
    · rw [textual_putEntry (not_exists.mp hname)]
      cases name with
      | str s => exact absurd ⟨s, rfl⟩ hname
      | _ => rfl

/-- Names that are no texts do not come in the way of those that are. -/
lemma namedFields_mergeValue (b : Record) (h : v.namedFields = some o) :
    (mergeValue (some (.obj b)) v).namedFields = some (mergeFields b o) := by
  cases v with
  | obj fields =>
    cases h
    rfl
  | map entries =>
    cases h
    have hbase : textual (b.map fun field => (.str field.1, field.2)) = b := by
      unfold textual
      rw [filterMap_map]
      exact filterMap_some
    change some (textual (mergeEntries _ entries)) = some (mergeFields b (textual entries))
    rw [textual_mergeEntries, hbase]
  | _ => cases h

/-- Settings that are not empty are refused where they do not fit. -/
def inRoomOf (given : Value) (fits : Value → Bool) : Except Fault Unit :=
  if given.truthy && !fits given then .error .tooDeep else .ok ()

/-- Loading ends with the usual settings and those of the file laid over them, once the checks have ended. -/
lemma fields_load (hfile : find? files project = some path) (hread : read files path = .ok given)
    (hgiven : given.namedFields = some file) :
    (load files project fits >>= fields) = warnings file path >>= fun _ =>
      inRoomOf given fits >>= fun _ => .ok (mergeFields defaults file) := by
  have hfields : given.fields = .ok file := by
    unfold fields
    rw [hgiven]
  unfold load
  rw [hfile]
  unfold inRoomOf
  simp only [hread, ok_bind, hfields]
  by_cases h : given.truthy
  · simp only [h, Bool.not_true, Bool.false_eq_true, if_false]
    cases warnings file path with
    | error fault => rfl
    | ok found =>
      cases fits given with
      | false => rfl
      | true =>
        change (mergeValue _ given).fields = _
        unfold fields
        rw [namedFields_mergeValue defaults hgiven]
        rfl
  · have hempty : file = [] := by
      cases given with
      | obj fields => cases hgiven; simpa [truthy] using h
      | map entries =>
        have hnil : entries = [] := by simpa [truthy] using h
        subst hnil
        exact (Option.some.inj hgiven).symm
      | _ => cases hgiven
    subst hempty
    simp only [h]
    rfl

/-! ## What a scan gets -/

lemma hasFields_of_part {default x : Value} (h : v.part name default = .ok x) : v.hasFields := by
  rw [← isOk_part v name default, h]
  rfl

lemma ofRecord_eq_ok {s : ScanSettings} (h : ScanSettings.ofRecord settings c = .ok s) :
    (∀ name ∈ sections, (settings.getD name (.obj [])).hasFields) ∧
      ∀ setting ∈ choices, (settings.getD setting.sectionName (.obj [])).part setting.field setting.default =
        .ok (setting.of s) := by
  simp only [ScanSettings.ofRecord, bind_eq_ok_iff] at h
  obtain ⟨paths, -, exclude, -, languages, hlanguages, dirs, hdirs, disabled, -, minimum, hminimum, enabled, henabled,
    model, -, format, hformat, file, -, hs⟩ := h
  cases hs
  simp only [sections, choices, forall_mem_cons]
  exact ⟨⟨hasFields_of_part hlanguages, hasFields_of_part hdirs, hasFields_of_part hminimum, hasFields_of_part henabled,
    hasFields_of_part hformat, fun _ => nofun⟩, hlanguages, hminimum, hformat, fun _ => nofun⟩

lemma isOk_ofRecord : (ofRecord settings c).isOk ↔ ∀ name ∈ sections, (settings.getD name (.obj [])).hasFields := by
  constructor
  · intro h
    obtain ⟨s, hs⟩ := isOk_iff.mp h
    exact (ofRecord_eq_ok hs).1
  · intro h
    have hparts : ∀ name ∈ sections, ∀ field default, ∃ x, (settings.getD name (.obj [])).part field default = .ok x :=
      fun name hname field default => isOk_iff.mp ((isOk_part _ _ _).trans (h name hname))
    choose! value hvalue using hparts
    simp only [ofRecord, hvalue "scan" (by decide), hvalue "rules" (by decide), hvalue "severity" (by decide),
      hvalue "ml" (by decide), hvalue "output" (by decide), ok_bind]
    rfl

lemma exists_section (h : name ∈ sections) : ∃ base, defaults.get? name = some (.obj base) := by
  simp only [sections, mem_cons, not_mem_nil, or_false] at h
  rcases h with rfl | rfl | rfl | rfl | rfl <;> exact ⟨_, rfl⟩

/-- The default of a setting is what the usual settings have in its place. -/
lemma Setting.exists_default (h : setting ∈ choices) : ∃ base : Record,
    defaults.get? setting.sectionName = some (.obj base) ∧ base.get? setting.field = some setting.default ∧
      setting.default.isRecord = false := by
  simp only [choices, mem_cons, not_mem_nil, or_false] at h
  rcases h with rfl | rfl | rfl <;> exact ⟨_, rfl, rfl, rfl⟩

/-- Whether a mapping, and each mapping in it, has every name once. -/
def hasNamesOnce (file : Record) : Bool :=
  decide file.names.Nodup && file.all fun field => field.2.namedFields.all fun inner => decide inner.names.Nodup

lemma nodup_of_hasNamesOnce (h : hasNamesOnce file) : file.names.Nodup ∧
    ∀ name v inner, file.get? name = some v → v.namedFields = some inner → inner.names.Nodup := by
  unfold hasNamesOnce at h
  rw [Bool.and_eq_true, decide_eq_true_eq, all_eq_true] at h
  refine ⟨h.1, fun name v inner hv hinner => ?_⟩
  have hall := h.2 _ (mem_of_get? hv)
  rw [hinner] at hall
  exact of_decide_eq_true hall

section Merged

variable (honce : hasNamesOnce file) {name : String}

include honce

lemma getD_merged {base : Record} (hbase : defaults.get? name = some (.obj base)) :
    (mergeFields defaults file).getD name (.obj []) =
      ((file.get? name).map (mergeValue (some (.obj base)))).getD (.obj base) := by
  unfold Record.getD
  rw [get?_mergeFields defaults (nodup_of_hasNamesOnce honce).1, hbase]
  cases file.get? name <;> rfl

lemma hasFields_merged (h : name ∈ sections) :
    ((mergeFields defaults file).getD name (.obj [])).hasFields = (file.get? name).all hasFields := by
  obtain ⟨base, hbase⟩ := exists_section h
  rw [getD_merged honce hbase]
  cases file.get? name with
  | none => rfl
  | some v => cases v <;> rfl

lemma part_merged (h : setting ∈ choices)
    (hpart : ((mergeFields defaults file).getD setting.sectionName (.obj [])).part setting.field setting.default = .ok x) :
    x = (setting.given? file).getD setting.default := by
  obtain ⟨base, hbase, hdefault, hleaf⟩ := Setting.exists_default h
  have hover : ∀ w, mergeValue (some setting.default) w = w := by
    intro w
    cases hold : setting.default with
    | obj fields => rw [hold] at hleaf; cases hleaf
    | map entries => rw [hold] at hleaf; cases hleaf
    | _ => cases w <;> rfl
  rw [getD_merged honce hbase] at hpart
  unfold Setting.given? inSection?
  cases hsection : file.get? setting.sectionName with
  | none =>
    rw [hsection] at hpart
    have hbasePart := Except.ok.inj hpart
    unfold Record.getD at hbasePart
    rw [hdefault] at hbasePart
    exact hbasePart.symm
  | some v =>
    rw [hsection, Option.map_some, Option.getD_some] at hpart
    cases hfields : v.namedFields with
    | none =>
      have hsame : (mergeValue (some (.obj base)) v).namedFields = none := by
        cases v with
        | obj fields => cases hfields
        | map entries => cases hfields
        | _ => rfl
      rw [part_eq, hsame] at hpart
      cases hpart
    | some inner =>
      rw [part_of_fields (namedFields_mergeValue base hfields)] at hpart
      cases hpart
      unfold Record.getD
      have hinner := (nodup_of_hasNamesOnce honce).2 _ v inner hsection hfields
      rw [get?_mergeFields base hinner, hdefault, Option.bind_some, hfields, Option.bind_some]
      cases inner.get? setting.field with
      | none => rfl
      | some w => exact hover w

end Merged

lemma getD_filter_eq_iff {α : Type} {test : α → Bool} {default : α} (h : test default) {o : Option α} :
    (o.filter test).getD default = o.getD default ↔ o.all test := by
  cases o with
  | none => simp
  | some a =>
    rw [Option.filter_some, Option.all_some, Option.getD_some]
    by_cases ha : test a
    · simp [ha]
    · rw [if_neg ha, Option.getD_none]
      exact ⟨fun heq => absurd (heq ▸ h) ha, fun h => absurd h ha⟩

def urgentProject : FileTree := { entries := [(["p", ".vulnpredict.yml"], .file (.text "severity:\n  minimum: urgent\n"))] }

end CodeAudit.Config

import CodeAudit.Dependencies.Cache
import CodeAudit.Proofs.Decimal.Order
import CodeAudit.Proofs.Json.Document
import Mathlib.Data.Finset.Card

/-!
# Names of packages

A package with ASCII names and no colon in ecosystem and name is known by its key up to case: the first two colons are
those put between the three names. So two such packages have the same file exactly when they differ in case at most, as
far as digests tell keys apart. If no version holds an at sign, the label of a package is its own as well.
-/

namespace CodeAudit

open List String Text

variable {cs : List Char} {p q : PlainPackage} {α : Type} {sep : α} {a b x y : List α}

/-! ## ASCII letters in lower case -/

lemma Text.lowerChar_ascii : ∀ n < 128, lowerChar (Char.ofNat n) = (Char.ofNat n).toLower := by
  decide +kernel

lemma Text.toLower_ascii : ∀ n < 128, (Char.ofNat n).toLower.toNat < 128 ∧
    ((Char.ofNat n).toLower = ':' ↔ Char.ofNat n = ':') := by
  decide +kernel

section Ascii

variable {c : Char} (hc : isAscii c)

include hc

lemma Text.exists_code : ∃ n < 128, Char.ofNat n = c :=
  ⟨c.toNat, by simpa [isAscii] using hc, Char.ofNat_toNat c⟩

lemma Text.lowerChar_of_isAscii : lowerChar c = c.toLower := by
  obtain ⟨n, hn, rfl⟩ := exists_code hc
  exact lowerChar_ascii n hn

lemma Text.isAscii_toLower : isAscii c.toLower := by
  obtain ⟨n, hn, rfl⟩ := exists_code hc
  simpa [isAscii] using (toLower_ascii n hn).1

lemma Text.toLower_eq_colon : c.toLower = ':' ↔ c = ':' := by
  obtain ⟨n, hn, rfl⟩ := exists_code hc
  exact (toLower_ascii n hn).2

end Ascii

lemma Text.lowerFrom_of_isAscii (h : ∀ c ∈ cs, isAscii c) (before : List Char) :
    lowerFrom before cs = cs.map Char.toLower := by
  induction cs generalizing before with
  | nil => rfl
  | cons c cs ih =>
    have hc := h c mem_cons_self
    have hsmall : c.toNat < 128 := by simpa [isAscii] using hc
    rw [lowerFrom, map_cons, ih (fun d hd => h d (mem_cons_of_mem _ hd)),
      if_neg (by rw [beq_iff_eq]; omega), if_neg (by rw [beq_iff_eq]; omega), lowerChar_of_isAscii hc]
    rfl

lemma Text.isAscii_map_toLower (h : ∀ c ∈ cs, isAscii c) : ∀ c ∈ cs.map Char.toLower, isAscii c := by
  intro c hc
  obtain ⟨d, hd, rfl⟩ := mem_map.mp hc
  exact isAscii_toLower (h d hd)

lemma Text.colon_notMem_map_toLower (h : ∀ c ∈ cs, isAscii c) (hcolon : ':' ∉ cs) : ':' ∉ cs.map Char.toLower := by
  intro hmem
  obtain ⟨c, hc, hlower⟩ := mem_map.mp hmem
  rw [toLower_eq_colon (h c hc)] at hlower
  exact hcolon (hlower ▸ hc)

lemma Text.isEncodable_of_isAscii (h : ∀ c ∈ s.toList, isAscii c) : isEncodable s := by
  unfold isEncodable
  rw [all_eq_true]
  intro c hc
  have hsmall : c.toNat < 128 := by simpa [isAscii] using h c hc
  unfold surrogate? firstStandIn
  rw [if_neg (by omega)]
  rfl

/-! ## Texts around a separator -/

lemma append_separator_inj (ha : sep ∉ a) (hb : sep ∉ b) (h : a ++ sep :: x = b ++ sep :: y) : a = b ∧ x = y := by
  induction a generalizing b with
  | nil =>
    cases b with
    | nil => exact ⟨rfl, (cons.inj h).2⟩
    | cons d b => exact absurd ((cons.inj h).1 ▸ mem_cons_self) hb
  | cons c a ih =>
    cases b with
    | nil => exact absurd ((cons.inj h).1 ▸ mem_cons_self) ha
    | cons d b =>
      obtain ⟨hhead, htail⟩ := cons.inj h
      obtain ⟨heq, hrest⟩ := ih (fun hmem => ha (mem_cons_of_mem _ hmem))
        (fun hmem => hb (mem_cons_of_mem _ hmem)) htail
      exact ⟨by rw [hhead, heq], hrest⟩

lemma append_last_separator_inj (hx : sep ∉ x) (hy : sep ∉ y) (h : a ++ sep :: x = b ++ sep :: y) : a = b ∧ x = y := by
  have hreverse : x.reverse ++ sep :: a.reverse = y.reverse ++ sep :: b.reverse := by
    simpa using congrArg reverse h
  obtain ⟨hafter, hbefore⟩ := append_separator_inj (by simpa using hx) (by simpa using hy) hreverse
  exact ⟨reverse_inj.mp hbefore, reverse_inj.mp hafter⟩

/-! ## Packages with plain names -/

/-- A package with ASCII names, and no colon in its ecosystem and its name. -/
structure PlainPackage where
  ecosystem : String
  name : String
  version : String
  ecosystem_ascii : ∀ c ∈ ecosystem.toList, isAscii c
  name_ascii : ∀ c ∈ name.toList, isAscii c
  version_ascii : ∀ c ∈ version.toList, isAscii c
  ecosystem_colon : ':' ∉ ecosystem.toList
  name_colon : ':' ∉ name.toList

namespace PlainPackage

def toPackage (p : PlainPackage) : Package := .ofTexts p.ecosystem p.name p.version

def folded (p : PlainPackage) : List Char × List Char × List Char :=
  (p.ecosystem.toList.map Char.toLower, p.name.toList.map Char.toLower, p.version.toList.map Char.toLower)

def file (p : PlainPackage) : String := Sha256.hex p.toPackage.key ++ ".json"

def joined (ecosystem name version : List Char) : List Char := ecosystem ++ ':' :: (name ++ ':' :: version)

lemma isAscii_joined {a b c : List Char} (ha : ∀ x ∈ a, isAscii x) (hb : ∀ x ∈ b, isAscii x)
    (hc : ∀ x ∈ c, isAscii x) : ∀ x ∈ joined a b c, isAscii x := by
  have hcolon : isAscii ':' := by decide
  exact forall_mem_append.mpr ⟨ha, forall_mem_cons.mpr ⟨hcolon,
    forall_mem_append.mpr ⟨hb, forall_mem_cons.mpr ⟨hcolon, hc⟩⟩⟩⟩

lemma toList_key (p : PlainPackage) : p.toPackage.key.toList = joined (p.ecosystem.toList.map Char.toLower)
    (p.name.toList.map Char.toLower) (p.version.toList.map Char.toLower) := by
  have hraw : p.ecosystem ++ ":" ++ p.name ++ ":" ++ p.version =
      String.ofList (joined p.ecosystem.toList p.name.toList p.version.toList) := by
    apply toList_inj.mp
    simp [joined]
  have hkey : p.toPackage.key = lower (p.ecosystem ++ ":" ++ p.name ++ ":" ++ p.version) := rfl
  rw [hkey, hraw, lower, toList_ofList, toList_ofList,
    lowerFrom_of_isAscii (isAscii_joined p.ecosystem_ascii p.name_ascii p.version_ascii)]
  simp [joined]

lemma key_eq_iff : p.toPackage.key = q.toPackage.key ↔ p.folded = q.folded := by
  rw [← toList_inj, toList_key, toList_key, folded, folded, Prod.mk.injEq, Prod.mk.injEq]
  constructor
  · intro h
    obtain ⟨hecosystem, hrest⟩ := append_separator_inj
      (colon_notMem_map_toLower p.ecosystem_ascii p.ecosystem_colon)
      (colon_notMem_map_toLower q.ecosystem_ascii q.ecosystem_colon) h
    exact ⟨hecosystem, append_separator_inj (colon_notMem_map_toLower p.name_ascii p.name_colon)
      (colon_notMem_map_toLower q.name_ascii q.name_colon) hrest⟩
  · rintro ⟨hecosystem, hname, hversion⟩
    rw [hecosystem, hname, hversion]

lemma fileName_toPackage (p : PlainPackage) : p.toPackage.fileName = .ok p.file := by
  have hascii : ∀ c ∈ p.toPackage.key.toList, isAscii c := by
    rw [toList_key]
    exact isAscii_joined (isAscii_map_toLower p.ecosystem_ascii) (isAscii_map_toLower p.name_ascii)
      (isAscii_map_toLower p.version_ascii)
  unfold Package.fileName Package.digest Package.checkedKey
  rw [if_pos (isEncodable_of_isAscii hascii)]
  rfl

/-- The digests of the keys of some packages tell the keys apart. -/
def NoCollisions (used : List PlainPackage) : Prop :=
  ∀ p ∈ used, ∀ q ∈ used, Sha256.hex p.toPackage.key = Sha256.hex q.toPackage.key → p.toPackage.key = q.toPackage.key

instance (used : List PlainPackage) : Decidable (NoCollisions used) :=
  inferInstanceAs (Decidable (∀ p ∈ used, ∀ q ∈ used,
    Sha256.hex p.toPackage.key = Sha256.hex q.toPackage.key → p.toPackage.key = q.toPackage.key))

variable {used : List PlainPackage}

lemma NoCollisions.of_subset (h : NoCollisions used) (hfewer : fewer ⊆ used) : NoCollisions fewer :=
  fun p hp q hq => h p (hfewer hp) q (hfewer hq)

/-- **Packages have the same file exactly when they differ in case at most.** -/
lemma file_eq_iff (h : NoCollisions used) (hp : p ∈ used) (hq : q ∈ used) : p.file = q.file ↔ p.folded = q.folded := by
  rw [← key_eq_iff]
  constructor
  · intro hfile
    exact h p hp q hq (append_left_inj ".json" |>.mp hfile)
  · intro hkey
    rw [file, file, hkey]

/-- **The label of a package is its own**, if versions hold no at sign. -/
lemma label_inj (hp : '@' ∉ p.version.toList) (hq : '@' ∉ q.version.toList)
    (h : p.toPackage.label = q.toPackage.label) : p.toPackage = q.toPackage := by
  have hlabel : ∀ r : PlainPackage, r.toPackage.label.toList =
      r.ecosystem.toList ++ ':' :: (r.name.toList ++ '@' :: r.version.toList) := by
    intro r
    have htext : r.toPackage.label = r.ecosystem ++ ":" ++ r.name ++ "@" ++ r.version := rfl
    rw [htext]
    simp
  rw [← toList_inj, hlabel, hlabel] at h
  obtain ⟨hecosystem, hrest⟩ := append_separator_inj p.ecosystem_colon q.ecosystem_colon h
  obtain ⟨hname, hversion⟩ := append_last_separator_inj hp hq hrest
  rw [toPackage, toPackage, toList_inj.mp hecosystem, toList_inj.mp hname, toList_inj.mp hversion]

/-! ## Some packages -/

def flask : PlainPackage where
  ecosystem := "PyPI"
  name := "Flask"
  version := "1.0rc1"
  ecosystem_ascii := all_eq_true.mp (by decide +kernel)
  name_ascii := all_eq_true.mp (by decide +kernel)
  version_ascii := all_eq_true.mp (by decide +kernel)
  ecosystem_colon := by decide +kernel
  name_colon := by decide +kernel

def shoutedFlask : PlainPackage :=
  { flask with
    name := "FLASK"
    version := "1.0RC1"
    name_ascii := all_eq_true.mp (by decide +kernel)
    version_ascii := all_eq_true.mp (by decide +kernel)
    name_colon := by decide +kernel }

def six : PlainPackage :=
  { flask with
    name := "six"
    name_ascii := all_eq_true.mp (by decide +kernel)
    name_colon := by decide +kernel }

lemma noCollisions_flask : NoCollisions [flask, shoutedFlask, six] := by decide +kernel

end PlainPackage

end CodeAudit

/-!
## Entries of the vulnerability cache

A stored answer is there as a document, is read back as long as it is not too old, and the files of other names stay as
they are.
-/

namespace CodeAudit.VulnCache

open Proofs Option Json Value

variable {c : VulnCache}

variable {name other : String} {vulns : List Value} {p : Package} {now time : Float}

/-! ## Files of the directory -/

lemma isSome_directory_setEntry (name : String) (e : Entry) :
    (c.setEntry name e).directory.isSome = c.directory.isSome := by
  unfold setEntry
  rw [isSome_map]

lemma entry?_setEntry_self (hthere : c.directory.isSome) (name : String) (e : Entry) :
    entry? (c.setEntry name e) name = some e := by
  obtain ⟨entries, hentries⟩ := isSome_iff_exists.mp hthere
  unfold setEntry entry?
  rw [hentries]
  simp

lemma entry?_setEntry_of_ne (hne : other ≠ name) (e : Entry) :
    entry? (c.setEntry name e) other = c.entry? other := by
  unfold setEntry entry?
  cases c.directory with
  | none => rfl
  | some entries =>
    rw [map_some, bind_some, bind_some, List.find?_cons_of_neg (by simpa using Ne.symm hne), List.find?_filter]
    congr 2
    funext entry
    by_cases hother : entry.1 = other
    · simp [hother, hne]
    · simp [hother]

lemma isSome_of_isWritable (h : c.isWritable name) : c.directory.isSome := by
  unfold isWritable at h
  exact (Bool.and_eq_true_iff.mp h).1

lemma isWritable_setEntry (hother : c.isWritable other) (content : Content) :
    (c.setEntry name (.file content)).isWritable other := by
  unfold isWritable at hother ⊢
  rw [Bool.and_eq_true] at hother
  rw [isSome_directory_setEntry, hother.1, Bool.true_and]
  by_cases heq : other = name
  · rw [heq, entry?_setEntry_self hother.1]
    rfl
  · rw [entry?_setEntry_of_ne heq]
    exact hother.2

/-! ## Storing and reading an answer -/

/-- Whether a list of vulnerabilities can be kept as JSON: documents that leave room for what is around them. -/
def isStorable (vulns : List Value) : Bool := isDocument (deepest - 1) (.list vulns)

lemma isDocument_document (h : isStorable vulns) (time : Float) : isDocument deepest (document time (.list vulns)) := by
  have hroom : deepest = deepest - 1 + 1 := rfl
  rw [hroom, document, isDocument_obj]
  refine ⟨show ["ts", "vulns"].Nodup by decide, ?_⟩
  intro f hf
  rcases List.mem_cons.mp hf with rfl | hf
  · exact ⟨show mendedText "ts" = "ts" by decide, by rw [isDocument]⟩
  · rw [List.mem_singleton.mp hf]
    exact ⟨show mendedText "vulns" = "vulns" by decide, h⟩

def entryText (time : Float) (vulns : List Value) : String := write .line (document time (.list vulns))

lemma put_eq (hname : p.fileName = .ok name) (hwritable : c.isWritable name) (h : isStorable vulns) (now : Float) :
    c.put now p (.list vulns) = .ok (c.setEntry name (.file (.text (entryText now vulns)))) := by
  unfold put
  rw [hname, ok_bind, if_pos hwritable, writeStrict_of_isDocument (isDocument_document h now)]
  rfl

/-- What storing can do: nothing where the file cannot be written, and otherwise it writes one file. -/
lemma put_cases (h : c.put now p (.list vulns) = .ok d) :
    ∃ name, p.fileName = .ok name ∧ (c.isWritable name = false ∧ d = c ∨
      c.isWritable name ∧ d = c.setEntry name (.file (.text (entryText now vulns)))) := by
  unfold put at h
  obtain ⟨name, hname, hrest⟩ := of_bind h
  refine ⟨name, hname, ?_⟩
  by_cases hwritable : c.isWritable name
  · rw [if_pos hwritable] at hrest
    obtain ⟨text, htext, hresult⟩ := of_bind hrest
    unfold writeStrict at htext
    split at htext
    · cases htext
      exact .inr ⟨hwritable, (Except.ok.inj hresult).symm⟩
    · cases htext
  · rw [if_neg hwritable] at hrest
    exact .inl ⟨Bool.eq_false_iff.mpr hwritable, (Except.ok.inj hrest).symm⟩

lemma put_of_not_isWritable (hname : p.fileName = .ok name)
    (hwritable : c.isWritable name = false) (now : Float) (vulns : Value) : c.put now p vulns = .ok c := by
  unfold put
  rw [hname, ok_bind, hwritable, if_neg Bool.false_ne_true, pure_eq_ok]

lemma readEntry_entryText (h : isStorable vulns) (now time : Float) :
    c.readEntry now (.text (entryText time vulns)) = c.live now (.float time) (.list vulns) := by
  unfold readEntry entryText
  dsimp only [Content.decode, bind, Except.bind]
  rw [read_file (isDocument_document h time)]
  rfl

lemma eq_nil_of_readEntry (h : c.readEntry now (.text (entryText time vulns)) = .ok (some [])) : vulns = [] := by
  have hroom : deepest = deepest - 2 + 1 + 1 := rfl
  unfold readEntry entryText at h
  dsimp only [Content.decode, bind, Except.bind] at h
  rw [read_line, document, kept, hroom, deeper_succ, keptFields, keptFields, kept, kept, deeper_succ] at h
  cases hvulns : keptAll (deepest - 2) vulns with
  | error fault =>
    rw [hvulns] at h
    cases fault <;> cases h
  | ok kept =>
    rw [hvulns] at h
    have hlive : c.live now (reread time) (.list kept) = .ok (some []) := h
    unfold live at hlive
    obtain ⟨x, -, hlive⟩ := of_bind hlive
    obtain ⟨isOld, -, hlive⟩ := of_bind hlive
    have hkept : kept = [] := by
      cases isOld with
      | true => cases hlive
      | false =>
        cases hlive
        rfl
    subst hkept
    cases vulns with
    | nil => rfl
    | cons v vs =>
      obtain ⟨first, -, hrest⟩ := of_bind hvulns
      obtain ⟨rest, -, hcons⟩ := of_bind hrest
      cases hcons

def isAtMost (age : Float) (ttl : Number) : Bool := (Number.compare? (.real age) ttl).any (·.isLE)

lemma live_eq {ttl : Number} (hc : c.ttl = ttl.toValue) (hordered : ttl.isOrdered)
    (hage : (now - time).isNaN = false) (vulns : List Value) :
    c.live now (.float time) (.list vulns) = .ok (if isAtMost (now - time) ttl then some vulns else none) := by
  have horder : (float (now - time)).order ttl.toValue = .ok (Number.compare? (.real (now - time)) ttl) := by
    cases ttl <;> simp [Number.toValue, order, number?]
  obtain ⟨o, ho⟩ := isSome_iff_exists.mp (Number.isSome_compare? hage hordered)
  unfold live
  dsimp only [toFloat?, number?, bind, Except.bind, Number.toFloat]
  rw [hc]
  unfold exceeds isAtMost
  rw [horder, ho]
  cases o <;> rfl

lemma get_of_file (hname : p.fileName = .ok name)
    (hentry : c.entry? name = some (.file content)) (now : Float) : c.get now p = c.readEntry now content := by
  unfold get
  rw [hname, ok_bind, hentry]

lemma get_of_none (hname : p.fileName = .ok name) (hentry : c.entry? name = none)
    (now : Float) : c.get now p = .ok none := by
  unfold get
  rw [hname, ok_bind, hentry, pure_eq_ok]

lemma get_congr {d : VulnCache} (hname : p.fileName = .ok name) (httl : d.ttl = c.ttl)
    (hentry : d.entry? name = c.entry? name) (now : Float) : d.get now p = c.get now p := by
  unfold get readEntry answerIn live
  rw [hname, ok_bind, ok_bind, hentry, httl]

/-- An answer counts when it has just been stored: the limit is not negative. -/
def IsLasting (c : VulnCache) : Prop :=
  ∃ ttl : Number, c.ttl = ttl.toValue ∧ ttl.isOrdered ∧ isAtMost 0.0 ttl

lemma get_of_fresh (hlasting : c.IsLasting) (hnow : now.isFinite)
    (hvulns : isStorable vulns) (hname : p.fileName = .ok name)
    (hentry : c.entry? name = some (.file (.text (entryText now vulns)))) : c.get now p = .ok (some vulns) := by
  obtain ⟨ttl, httl, hordered, hlimit⟩ := hlasting
  rw [get_of_file hname hentry, readEntry_entryText hvulns, live_eq httl hordered (Decimal.isNaN_sub hnow hnow),
    Decimal.sub_self hnow, if_pos hlimit]

end CodeAudit.VulnCache

/-!
## The cache as a map with expiry

What the cache answers for a package can be said from the calls alone: the list stored last for it, up to case, since
the cache was cleared, unless too old. Clearing tells how many packages were stored in between. `remember` says what
each call makes of the entries, and `on_cacheOf` that the directory follows it step by step.
-/

namespace CodeAudit

open Proofs List VulnCache PlainPackage

inductive CacheCall where
  | put (now : Float) (p : PlainPackage) (vulns : List Value)
  | get (now : Float) (p : PlainPackage)
  | clear

namespace CacheCall

def on (c : VulnCache) : CacheCall → Except Fault VulnCache
  | .put now p vulns => c.put now p.toPackage (.list vulns)
  | .get now p => (c.get now p.toPackage).map fun _ => c
  | .clear => .ok c.clear.2

def after (c : VulnCache) (calls : List CacheCall) : Except Fault VulnCache := calls.foldlM on c

/-- A call on one of some packages, at a time that is a number, with a list that can be kept. -/
def IsSound (used : List PlainPackage) : CacheCall → Prop
  | .put now p vulns => p ∈ used ∧ now.isFinite ∧ isStorable vulns
  | .get now p => p ∈ used ∧ now.isFinite
  | .clear => True

/-- A call on another package, beyond the case of letters. -/
def IsElsewhere (t : PlainPackage) : CacheCall → Prop
  | .put _ p _ | .get _ p => p.folded ≠ t.folded
  | .clear => False

/-! ## What the calls say -/

def isClear : CacheCall → Bool
  | .clear => true
  | _ => false

/-- The calls since the cache was cleared last, the latest first. -/
def sinceClear (calls : List CacheCall) : List CacheCall := calls.reverse.takeWhile fun call => !call.isClear

/-- What a call stores for a package: the time and the list. -/
def storedFor? (t : PlainPackage) : CacheCall → Option (Float × List Value)
  | .put now p vulns => if p.folded = t.folded then some (now, vulns) else none
  | _ => none

/-- The package that a call stores something for, without regard to case. -/
def storedName? : CacheCall → Option (List Char × List Char × List Char)
  | .put _ p _ => some p.folded
  | _ => none

/-- What calls leave for a package: the list stored last since the cache was cleared, if it is not too old. -/
def answer (ttl : Number) (calls : List CacheCall) (now : Float) (t : PlainPackage) : Option (List Value) :=
  ((sinceClear calls).findSome? (storedFor? t)).bind fun stored =>
    if isAtMost (now - stored.1) ttl then some stored.2 else none

/-- How many packages something was stored for since the cache was cleared. -/
def storedCount (calls : List CacheCall) : Nat := ((sinceClear calls).filterMap storedName?).toFinset.card

end CacheCall

/-- An entry of the map: a package, the time at which an answer was stored for it, and the answer. -/
structure Stored where
  package : PlainPackage
  time : Float
  vulns : List Value

namespace Stored

def file (s : Stored) : String × Entry := (s.package.file, .file (.text (entryText s.time s.vulns)))

lemma file_fst (s : Stored) : s.file.1 = s.package.file := rfl

def IsSound (used : List PlainPackage) (s : Stored) : Prop :=
  s.package ∈ used ∧ s.time.isFinite ∧ isStorable s.vulns

end Stored

/-- What a call makes of the entries, the latest first. -/
def remember (kept : List Stored) : CacheCall → List Stored
  | .put now p vulns => ⟨p, now, vulns⟩ :: kept.filter fun s => s.package.folded ≠ p.folded
  | .get _ _ => kept
  | .clear => []

def remembered (calls : List CacheCall) : List Stored := calls.foldl remember []

def cacheOf (ttl : Number) (kept : List Stored) : VulnCache :=
  { ttl := ttl.toValue, directory := some (kept.map Stored.file) }

section Files

variable (ttl : Number) {used : List PlainPackage} (hused : NoCollisions used) {kept : List Stored}
  (hkept : ∀ s ∈ kept, s.IsSound used) {t p : PlainPackage} {call : CacheCall}

include hused hkept

lemma entry?_cacheOf (ht : t ∈ used) :
    entry? (cacheOf ttl kept) t.file = (kept.find? fun s => s.package.folded = t.folded).map fun s => s.file.2 := by
  unfold entry? cacheOf
  rw [Option.bind_some]
  induction kept with
  | nil => rfl
  | cons s kept ih =>
    have hsame := file_eq_iff hused (hkept s mem_cons_self).1 ht
    have hrest := ih fun s hs => hkept s (mem_cons_of_mem _ hs)
    rw [map_cons, find?_cons, find?_cons]
    by_cases hfolded : s.package.folded = t.folded
    · rw [decide_eq_true hfolded, show (s.file.1 == t.file) from beq_iff_eq.mpr (hsame.mpr hfolded)]
      rfl
    · rw [decide_eq_false hfolded, show (s.file.1 == t.file) = false from beq_eq_false_iff_ne.mpr (mt hsame.mp hfolded)]
      exact hrest

lemma get_cacheOf (hordered : ttl.isOrdered) (ht : t ∈ used)
    (hnow : now.isFinite) : (cacheOf ttl kept).get now t.toPackage =
      .ok ((kept.find? fun s => s.package.folded = t.folded).bind fun s =>
        if isAtMost (now - s.time) ttl then some s.vulns else none) := by
  have hentry := entry?_cacheOf ttl hused hkept ht
  have hname := t.fileName_toPackage
  cases hfind : kept.find? fun s => s.package.folded = t.folded with
  | none =>
    rw [hfind] at hentry
    rw [get_of_none hname hentry]
    rfl
  | some s =>
    rw [hfind] at hentry
    obtain ⟨-, htime, hvulns⟩ := hkept s (mem_of_find?_eq_some hfind)
    rw [get_of_file hname hentry, readEntry_entryText hvulns, live_eq rfl hordered (Decimal.isNaN_sub hnow htime)]
    rfl

lemma filter_files (hp : p ∈ used) : (kept.map Stored.file).filter (fun f => f.1 != p.file) =
    (kept.filter fun s => s.package.folded ≠ p.folded).map Stored.file := by
  rw [filter_map]
  refine congrArg _ (filter_congr ?_)
  intro s hs
  have hfile := file_eq_iff hused (hkept s hs).1 hp
  rw [Function.comp_apply, Stored.file_fst]
  by_cases hfolded : s.package.folded = p.folded
  · rw [hfile.mpr hfolded, bne_self_eq_false, decide_eq_false (not_not_intro hfolded)]
  · rw [bne_iff_ne.mpr (mt hfile.mp hfolded), decide_eq_true hfolded]

lemma isWritable_cacheOf (hp : p ∈ used) : (cacheOf ttl kept).isWritable p.file := by
  unfold isWritable
  rw [entry?_cacheOf ttl hused hkept hp]
  cases kept.find? fun s => s.package.folded = p.folded <;> rfl

omit hused hkept in
lemma isEntryFile_file (s : Stored) : isEntryFile s.file := by
  have hends : Text.endsWith s.package.file ".json" := by
    unfold Text.endsWith file
    rw [String.toList_append, isSuffixOf_iff_suffix]
    exact suffix_append _ _
  exact hends

omit hused hkept in
lemma clear_cacheOf : (cacheOf ttl kept).clear = (kept.length, cacheOf ttl []) := by
  have hall : ∀ f ∈ kept.map Stored.file, isEntryFile f := by
    intro f hf
    obtain ⟨s, -, rfl⟩ := mem_map.mp hf
    exact isEntryFile_file s
  have hnone : (kept.map Stored.file).filter (fun f => !isEntryFile f) = [] := by
    rw [filter_eq_nil_iff]
    intro f hf
    simp [hall f hf]
  have hcount : (kept.map Stored.file).countP isEntryFile = kept.length := by
    rw [countP_eq_length.mpr hall, length_map]
  unfold clear cacheOf
  dsimp only
  rw [hcount, hnone]
  rfl

/-! ## Steps and runs -/

omit hused in
lemma isSound_remember (hcall : call.IsSound used) : ∀ s ∈ remember kept call, s.IsSound used := by
  cases call with
  | put now p vulns =>
    exact forall_mem_cons.mpr ⟨hcall, fun s hs => hkept s (mem_filter.mp hs).1⟩
  | get now p => exact hkept
  | clear => exact fun s hs => absurd hs not_mem_nil

/-- **One call on the files does what it does on the entries.** -/
lemma on_cacheOf (hordered : ttl.isOrdered) (hcall : call.IsSound used) :
    call.on (cacheOf ttl kept) = .ok (cacheOf ttl (remember kept call)) := by
  cases call with
  | put now p vulns =>
    obtain ⟨hp, -, hvulns⟩ := hcall
    dsimp only [CacheCall.on]
    rw [put_eq p.fileName_toPackage (isWritable_cacheOf ttl hused hkept hp) hvulns]
    -- the new file replaces those of its name, the new entry those of its package
    unfold setEntry cacheOf
    rw [Option.map_some, filter_files hused hkept hp]
    rfl
  | get now p =>
    obtain ⟨hp, hnow⟩ := hcall
    dsimp only [CacheCall.on]
    rw [get_cacheOf ttl hused hkept hordered hp hnow]
    rfl
  | clear =>
    dsimp only [CacheCall.on]
    rw [clear_cacheOf]
    rfl

/-- A run of calls does to the files what it does to the entries, and leaves entries of the packages in use. -/
lemma after_cacheOf (hordered : ttl.isOrdered) (hcalls : ∀ call ∈ calls, call.IsSound used) :
    CacheCall.after (cacheOf ttl kept) calls = .ok (cacheOf ttl (calls.foldl remember kept)) ∧
      ∀ s ∈ calls.foldl remember kept, s.IsSound used := by
  induction calls generalizing kept with
  | nil => exact ⟨rfl, hkept⟩
  | cons call calls ih =>
    have hcall := hcalls call mem_cons_self
    have hnext := isSound_remember hkept hcall
    have hrest := ih hnext fun other hother => hcalls other (mem_cons_of_mem _ hother)
    unfold CacheCall.after at hrest ⊢
    rw [foldlM_cons, on_cacheOf ttl hused hkept hordered hcall]
    exact hrest

end Files

/-! ## The entries as the calls say them -/

namespace CacheCall

variable (calls : List CacheCall)

lemma remembered_concat (call : CacheCall) : remembered (calls ++ [call]) = remember (remembered calls) call := by
  unfold remembered
  rw [foldl_append]
  rfl

lemma sinceClear_concat_clear : sinceClear (calls ++ [.clear]) = [] := by
  unfold sinceClear
  rw [reverse_append]
  rfl

variable {call : CacheCall}

lemma sinceClear_concat (hcall : call.isClear = false) (calls : List CacheCall) :
    sinceClear (calls ++ [call]) = call :: sinceClear calls := by
  unfold sinceClear
  rw [reverse_append, reverse_singleton, singleton_append, takeWhile_cons, hcall]
  rfl

lemma find?_remember (h : call.IsElsewhere t) :
    (remember kept call).find? (fun s => s.package.folded = t.folded) =
      kept.find? fun s => s.package.folded = t.folded := by
  cases call with
  | clear => exact absurd h id
  | get now p => rfl
  | put now p vulns =>
    have hne : p.folded ≠ t.folded := h
    rw [remember, find?_cons_of_neg (by simpa using hne), find?_filter]
    congr 1
    funext s
    by_cases hother : s.package.folded = t.folded
    · simp [hother, Ne.symm hne]
    · simp [hother]

lemma find?_remembered (t : PlainPackage) :
    ((remembered calls).find? fun s => s.package.folded = t.folded).map (fun s => (s.time, s.vulns)) =
      (sinceClear calls).findSome? (storedFor? t) := by
  induction calls using reverseRecOn with
  | nil => rfl
  | append_singleton calls call ih =>
    rw [remembered_concat]
    cases call with
    | clear =>
      rw [sinceClear_concat_clear]
      rfl
    | get now p =>
      rw [sinceClear_concat rfl, findSome?_cons]
      exact ih
    | put now p vulns =>
      rw [sinceClear_concat rfl, findSome?_cons]
      -- the last call decides, unless it is on another package
      by_cases hsame : p.folded = t.folded
      · rw [storedFor?, if_pos hsame, remember, find?_cons_of_pos (by simpa using hsame)]
        rfl
      · have hother : IsElsewhere t (.put now p vulns) := hsame
        rw [storedFor?, if_neg hsame, find?_remember hother]
        exact ih

lemma nodup_remembered : ((remembered calls).map fun s => s.package.folded).Nodup := by
  induction calls using reverseRecOn with
  | nil => exact nodup_nil
  | append_singleton calls call ih =>
    rw [remembered_concat]
    cases call with
    | clear => exact nodup_nil
    | get now p => exact ih
    | put now p vulns =>
      -- an older entry for the package has been filtered out
      refine nodup_cons.mpr ⟨?_, ih.sublist (filter_sublist.map _)⟩
      simp

lemma mem_remembered_iff (name : List Char × List Char × List Char) :
    (∃ s ∈ remembered calls, s.package.folded = name) ↔ name ∈ (sinceClear calls).filterMap storedName? := by
  induction calls using reverseRecOn with
  | nil => simp [remembered, sinceClear]
  | append_singleton calls call ih =>
    rw [remembered_concat]
    cases call with
    | clear =>
      rw [sinceClear_concat_clear]
      simp [remember]
    | get now p =>
      rw [sinceClear_concat rfl]
      exact ih
    | put now p vulns =>
      have hname : storedName? (.put now p vulns) = some p.folded := rfl
      rw [sinceClear_concat rfl, filterMap_cons_some hname, mem_cons, ← ih]
      constructor
      · rintro ⟨s, hs, rfl⟩
        rcases mem_cons.mp hs with rfl | hs
        · exact .inl rfl
        · exact .inr ⟨s, (mem_filter.mp hs).1, rfl⟩
      · intro h
        by_cases hsame : name = p.folded
        · exact ⟨_, mem_cons_self, hsame.symm⟩
        · obtain ⟨s, hs, rfl⟩ := h.resolve_left hsame
          exact ⟨s, mem_cons_of_mem _ (mem_filter.mpr ⟨hs, decide_eq_true hsame⟩), rfl⟩

lemma length_remembered : (remembered calls).length = storedCount calls := by
  have hsame : ((remembered calls).map fun s => s.package.folded).toFinset =
      ((sinceClear calls).filterMap storedName?).toFinset := by
    ext name
    rw [mem_toFinset, mem_toFinset, mem_map]
    exact mem_remembered_iff calls name
  unfold storedCount
  rw [← hsame, toFinset_card_of_nodup (nodup_remembered calls), length_map]

end CacheCall

/-- Something stored before the cache was cleared, an answer replaced under other letters, and another package. -/
def CacheCall.history : List CacheCall :=
  [.put 5.0 .flask [.str "GHSA-1"], .clear, .put 10.0 .flask [.str "GHSA-2"], .get 15.0 .six,
    .put 20.0 .shoutedFlask [], .put 30.0 .six [.obj [("vuln_id", .str "GHSA-3")]]]

end CodeAudit

import CodeAudit.Dashboard.Store
import CodeAudit.Proofs.Findings.Ordering
import Mathlib.Algebra.Order.Floor.Div

/-!
# Pages lose and repeat nothing

A page is cut out of a list by its size and the number of elements before it; the number of pages is worked out apart
from that. The pages put together are the list, and what comes after them is empty (`isPaged_of`). The store takes
numbers below `2 ^ 63` only: larger pages, and pages further off, are refused.
-/

namespace CodeAudit

open Proofs List Value Text Nat Page

section Pages

variable {α : Type} {xs : List α} {size number : Nat}

/-- Each page tells how many elements and pages there are, the pages put together are the list, and what comes after
them is empty. A page is refused if its size, or the number of elements before it, is too large for the store. -/
structure IsPaged (xs : List α) (size : Nat) (page : Nat → Except Fault (Page α)) : Prop where
  shown : ∀ number ≥ 1, size < 2 ^ 63 ∧ (number - 1) * size < 2 ^ 63 → ∃ p, page number = .ok p ∧ p.total = xs.length ∧
    p.pages = .nat (xs.length ⌈/⌉ size) ∧ (xs.length ⌈/⌉ size < number → p.items = [])
  refused : ∀ number ≥ 1, ¬(size < 2 ^ 63 ∧ (number - 1) * size < 2 ^ 63) → page number = .error .overflow
  whole : size < 2 ^ 63 → ∃ pages, (range' 1 (xs.length ⌈/⌉ size)).mapM page = .ok pages ∧ pages.flatMap (·.items) = xs

lemma pageCount_eq (total : Nat) (hpos : 1 ≤ size) : pageCount total size = (total ⌈/⌉ size : Nat) := by
  have hsum : (total : Int) + size - 1 = (total + size - 1 : Nat) := by omega
  unfold pageCount
  rw [hsum, ceilDiv_eq_add_pred_div, Int.natCast_ediv]

lemma pagesOf_nat (total : Nat) (hpos : 1 ≤ size) : pagesOf total (.nat size) = .ok (.nat (total ⌈/⌉ size)) := by
  have hmore : (nat size).exceeds (.int 0) = .ok true := by
    have hcompare : compare (size : Int) 0 = .gt := by
      rw [Int.compare_eq_gt]
      omega
    unfold exceeds
    simp only [nat, order, number?, Number.compare?, hcompare]
    rfl
  have hpages : pagesOf total (.nat size) = .ok (.int (pageCount total size)) := by
    unfold pagesOf
    rw [hmore]
    rfl
  rw [hpages, pageCount_eq total hpos]
  rfl

lemma inRange_nat (n : Nat) : Cell.inRange (n : Int) = decide (n < 2 ^ 63) := by
  unfold Cell.inRange
  rw [decide_eq_true (show -(2 ^ 63) ≤ (n : Int) by omega), Bool.true_and, decide_eq_decide]
  omega

lemma bounds_nat (number : Value) (size before : Nat) :
    PageRequest.bounds ⟨number, .nat size, .nat before⟩ =
      if size < 2 ^ 63 ∧ before < 2 ^ 63 then .ok ((size : Int), (before : Int)) else .error .overflow := by
  unfold PageRequest.bounds
  simp only [nat, Cell.ofValue, inRange_nat, decide_eq_true_eq, ite_and]
  split
  · split <;> rfl
  · rfl

/-- The page of a number: so many elements from a place on, where the store takes both numbers. -/
lemma page_eq (xs : List α) (hpos : 1 ≤ size) (hnumber : 1 ≤ number) :
    (do of xs (← PageRequest.of (.nat number) (.nat size))) = if size < 2 ^ 63 ∧ (number - 1) * size < 2 ^ 63 then
        .ok ⟨(xs.drop ((number - 1) * size)).take size, xs.length, .nat number, .nat size, .nat (xs.length ⌈/⌉ size)⟩
      else .error .overflow := by
  have hbefore : ((number : Int) - 1) * size = ((number - 1) * size : Nat) := by
    rw [cast_mul, cast_sub hnumber, cast_one]
  have hrequest : PageRequest.of (.nat number) (.nat size) =
      .ok ⟨.nat number, .nat size, .int (((number : Int) - 1) * size)⟩ := rfl
  have hwindow (before : Nat) : window xs size before = (xs.drop before).take size := by
    unfold window
    rw [if_neg (by omega), Int.toNat_natCast, Int.toNat_natCast]
  rw [hrequest, hbefore, ok_bind, ← nat]
  unfold of
  rw [bounds_nat]
  split
  · simp only [ok_bind, pagesOf_nat _ hpos, hwindow]
    rfl
  · rfl

lemma take_mul_eq_flatMap (xs : List α) (size count : Nat) :
    xs.take (count * size) = (range count).flatMap fun i => (xs.drop (i * size)).take size := by
  induction count with
  | zero => simp
  | succ count ih =>
    rw [succ_mul, take_add, ih, range_succ, flatMap_append, flatMap_singleton]

lemma isPaged_of (hpos : 1 ≤ size) (hrows : xs.length ≤ 2 ^ 63)
    (hpage : ∀ number, page number = do of xs (← PageRequest.of (.nat number) (.nat size))) : IsPaged xs size page := by
  have hceil : ∀ count, xs.length ⌈/⌉ size ≤ count ↔ xs.length ≤ count * size := by
    intro count
    rw [ceilDiv_le_iff_le_smul hpos, smul_eq_mul, mul_comm]
  refine ⟨fun number hnumber hfits => ?_, fun number hnumber hmany => ?_, ?_⟩
  · rw [hpage, page_eq xs hpos hnumber, if_pos hfits]
    refine ⟨_, rfl, rfl, rfl, fun hbeyond => ?_⟩
    have hless := (hceil (number - 1)).mp (by omega)
    simp [hless]
  · rw [hpage, page_eq xs hpos hnumber, if_neg hmany]
  · intro hsize
    refine ⟨(range (xs.length ⌈/⌉ size)).map fun i =>
      ⟨(xs.drop (i * size)).take size, xs.length, .nat (i + 1), .nat size, .nat (xs.length ⌈/⌉ size)⟩, ?_, ?_⟩
    · rw [range'_eq_map_range, mapM_eq_ok_iff, forall₂_map_left_iff, forall₂_map_right_iff, forall₂_same]
      intro i hi
      have hbefore : i * size < xs.length := by
        rw [mem_range, ← not_le, hceil] at hi
        omega
      rw [hpage, page_eq xs hpos (by omega), Nat.add_sub_cancel_left, if_pos ⟨hsize, by omega⟩, Nat.add_comm]
    · rw [flatMap_map, ← take_mul_eq_flatMap, take_of_length_le ((hceil _).mp le_rfl)]

end Pages

namespace Store

/-- Whether a cell is what a filter wants; no filter and an empty one want anything. -/
def passes (wanted : Option String) (c : Cell) : Bool := wanted.all fun word => word.isEmpty || c.holds (.text word)

/-- Whether a finding is of a scan and passes the filters. -/
def isWanted (id : String) (severity type : Option String) (f : StoredFinding) : Bool :=
  f.scan == id && passes severity f.severity && passes type f.type

lemma ofValue_of_isEncodable (h : isEncodable word) : Cell.ofValue (.str word) = .ok (.text word) := if_pos h

lemma cellFilter_optText (h : ∀ word ∈ wanted, isEncodable word) :
    cellFilter (.optText wanted) = .ok (passes wanted) := by
  cases wanted with
  | none => rfl
  | some word =>
    unfold cellFilter passes
    by_cases hempty : word.isEmpty
    · simp [optText, truthy, hempty]
    · simp [optText, truthy, hempty, ofValue_of_isEncodable (h word rfl)]

lemma matching_str (s : Store) {id : String} (hid : isEncodable id)
    (hseverity : ∀ word ∈ severity, isEncodable word) (htype : ∀ word ∈ type, isEncodable word) :
    s.matching (.str id) ⟨.optText severity, .optText type⟩ = .ok (s.findings.filter (isWanted id severity type)) := by
  unfold matching
  rw [ofValue_of_isEncodable hid, ok_bind, cellFilter_optText hseverity, ok_bind, cellFilter_optText htype, ok_bind]
  rfl

lemma isSorting_newestFirst (scans : List StoredScan) :
    IsSorting (fun a b => decide (b.created ≤ a.created)) scans.reverse (newestFirst scans) := by
  refine isSorting_mergeSort (fun a b c hab hbc => ?_) (fun a b => ?_) scans.reverse
  · rw [decide_eq_true_eq] at hab hbc ⊢
    exact hbc.trans hab
  · rw [Bool.or_eq_true, decide_eq_true_eq, decide_eq_true_eq]
    exact le_total _ _

/-- **Pages lose and repeat nothing.** The findings of a scan that pass the filters, in stored order, and all scans,
the latest first, are what their pages put together show. Of scans of one time the one made last comes first. -/
theorem pages_lose_nothing (s : Store) {id : String} {severity type : Option String}
    (hid : isEncodable id = true) (hseverity : ∀ word ∈ severity, isEncodable word = true)
    (htype : ∀ word ∈ type, isEncodable word = true) {size : Nat} (hpos : 1 ≤ size)
    (hfindings : s.findings.length ≤ 2 ^ 63) (hscans : s.scans.length ≤ 2 ^ 63) :
    IsPaged (s.findings.filter (isWanted id severity type)) size
        (fun number => s.findingPage (.str id) ⟨.optText severity, .optText type⟩ (.nat number) (.nat size)) ∧
      IsPaged (newestFirst s.scans) size (fun number => s.scanPage (.nat number) (.nat size)) ∧
      IsSorting (fun a b => decide (b.created ≤ a.created)) s.scans.reverse (newestFirst s.scans) := by
  have hsorting := isSorting_newestFirst s.scans
  refine ⟨isPaged_of hpos ((length_filter_le _ _).trans hfindings) fun number => ?_,
    isPaged_of hpos ?_ fun number => rfl, hsorting⟩
  · unfold findingPage
    rw [matching_str s hid hseverity htype]
    rfl
  · rwa [hsorting.perm.length_eq, length_reverse]

def stored (id : Nat) (severity : String) : StoredFinding where
  id := id
  scan := "scan-0001"
  findingId := .null
  type := .text "eval"
  severity := .text severity
  file := .null
  line := .null
  message := .null
  rule := .null
  weakness := .null
  details := "{}"

def fourFindings : Store := { findings := [stored 1 "high", stored 2 "low", stored 3 "high", stored 4 "high"] }

theorem pages_of_fourFindings :
    IsPaged [stored 1 "high", stored 3 "high", stored 4 "high"] 2 fun number =>
      fourFindings.findingPage (.str "scan-0001") ⟨.optText (some "high"), .optText none⟩ (.nat number) (.nat 2) := by
  have hhigh : fourFindings.findings.filter (isWanted "scan-0001" (some "high") none) =
      [stored 1 "high", stored 3 "high", stored 4 "high"] := rfl
  rw [← hhigh]
  exact (pages_lose_nothing fourFindings (by decide) (by decide) (by decide) (by decide) (by decide) (by decide)).1

/-- An empty store already refuses pages of a size that it cannot take. -/
theorem no_page_of_large_size : ({} : Store).scanPage (.nat 1) (.nat (2 ^ 63)) = .error .overflow := by
  have hpaged : ∀ size ≥ 1, IsPaged (newestFirst []) size fun number => ({} : Store).scanPage (.nat number) (.nat size) :=
    fun size hpos => isPaged_of hpos (by simp [newestFirst]) fun number => rfl
  exact (hpaged (2 ^ 63) (by decide)).refused 1 le_rfl fun h => lt_irrefl _ h.1

end Store

end CodeAudit

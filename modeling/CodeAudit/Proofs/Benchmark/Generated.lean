import CodeAudit.Benchmark.Run
import CodeAudit.Dataset.Sample
import CodeAudit.Proofs.Files.Writing
import CodeAudit.Proofs.Table.Records
import Mathlib.Data.List.Perm.Basic

/-!
# Generated benchmarks

A generated benchmark is written as comma-separated values. Whatever is in the fields, records are read as they were
written (`Csv.read_write`). A choice is one of the texts and a shuffle a permutation, whatever is drawn; so the samples
that are loaded are balanced for every kind (`load_generated`).
-/

namespace CodeAudit

open List Proofs Benchmark

/-! ## Choices -/

namespace Random

variable {σ α β : Type} (draw : Draw σ)

lemma choose_mem (x : α) (xs : List α) (s : σ) : ((choose draw x xs).run s).1 ∈ x :: xs := by
  change (x :: xs).getD (draw (xs.length + 1) s).1 x ∈ x :: xs
  rw [getD_eq_getElem?_getD]
  cases hget : (x :: xs)[(draw (xs.length + 1) s).1]? with
  | none => exact mem_cons_self
  | some y => exact mem_of_getElem? hget

lemma shuffleTo_perm (i : Nat) (xs : Array α) (s : σ) : ((shuffleTo draw i xs).run s).1.toList ~ xs.toList := by
  induction i generalizing xs s with
  | zero => exact .refl _
  | succ i ih =>
    refine (ih _ _).trans ?_
    unfold Array.swapIfInBounds
    split
    · split
      · exact (Array.swap_perm _ _).toList
      · exact .refl _
    · exact .refl _

lemma shuffle_perm (xs : List α) (s : σ) : ((shuffle draw xs).run s).1 ~ xs := shuffleTo_perm draw _ _ s

lemma forall_mapM {P : β → Prop} {step : α → StateM σ β} (h : ∀ a s, P ((step a).run s).1) (items : List α) (s : σ) :
    ((items.mapM step).run s).1.length = items.length ∧ ∀ b ∈ ((items.mapM step).run s).1, P b := by
  induction items generalizing s with
  | nil => exact ⟨rfl, nofun⟩
  | cons a items ih =>
    obtain ⟨hlength, hall⟩ := ih ((step a).run s).2
    rw [mapM_cons]
    exact ⟨congrArg (· + 1) hlength, forall_mem_cons.mpr ⟨h a s, hall⟩⟩

end Random

/-! ## Balance -/

namespace Dataset

def Templates.texts (t : Templates) (vulnerable : Bool) : List String :=
  if vulnerable then t.vulnerable :: t.moreVulnerable else t.safe :: t.moreSafe

lemma strip_eq_self {text : String} (hfirst : text.toList.head?.all (!Text.isBlank ·))
    (hlast : text.toList.getLast?.all (!Text.isBlank ·)) : Text.strip text = text := by
  have hdrop : ∀ cs : List Char, cs.head?.all (!Text.isBlank ·) → cs.dropWhile Text.isBlank = cs := by
    rintro (_ | ⟨c, cs⟩) h
    · rfl
    · exact dropWhile_cons_of_neg (by simpa using h)
  unfold Text.strip Chars.trim Chars.trimEnd
  rw [hdrop _ hfirst, hdrop _ (by rwa [head?_reverse]), reverse_reverse, String.ofList_toList]

lemma strip_texts : ∀ t ∈ allTemplates, ∀ vulnerable, ∀ text ∈ t.texts vulnerable, Text.strip text = text := by
  suffices h : ∀ t ∈ allTemplates, ∀ vulnerable, ∀ text ∈ t.texts vulnerable,
      text.toList.head?.all (!Text.isBlank ·) ∧ text.toList.getLast?.all (!Text.isBlank ·) by
    intro t ht vulnerable text htext
    obtain ⟨hfirst, hlast⟩ := h t ht vulnerable text htext
    exact strip_eq_self hfirst hlast
  -- Only the first and the last part of each text are evaluated.
  simp only [allTemplates, Templates.texts, sqlInjection, commandInjection, xss, deserialization, ssrf, weakCrypto,
    pathTraversal, Bool.forall_bool, Bool.false_eq_true, if_true, if_false, forall_mem_cons, not_mem_nil, false_implies,
    implies_true, and_true, String.toList_append, head?_append, getLast?_append]
  decide +kernel

/-- So many samples of one kind, half of them vulnerable, each with one of its texts as code. -/
structure IsBalanced (t : Templates) (n : Nat) (samples : List Sample) : Prop where
  vulnerable : samples.countP (·.vulnerable) = n / 2
  safe : samples.countP (!·.vulnerable) = n - n / 2
  texts : ∀ s ∈ samples, s.kind = t.kind ∧ s.code ∈ t.texts s.vulnerable

variable {σ : Type} (draw : Random.Draw σ) (t : Templates) (n : Nat) (s : σ)

lemma forall_samplesOf (kind : String) (vulnerable : Bool) (text : String) (texts : List String) :
    let samples := ((samplesOf draw kind vulnerable text texts n).run s).1
    samples.length = n ∧ ∀ x ∈ samples, x.kind = kind ∧ x.vulnerable = vulnerable ∧ x.code ∈ text :: texts := by
  intro samples
  refine (Random.forall_mapM (fun _ s => ?_) (range n) s).imp_left (·.trans length_range)
  exact ⟨rfl, rfl, Random.choose_mem draw text texts s⟩

lemma isBalanced_generate : IsBalanced t n ((generate draw t n).run s).1 := by
  have hhalf : vulnerableCount n = (n / 2 : Nat) := (Int.ofNat_fdiv n 2).symm
  have hsafe : ((n : Int) - vulnerableCount n).toNat = n - n / 2 := by
    rw [hhalf]
    omega
  obtain ⟨hfirst, hvulnerable⟩ := forall_samplesOf draw (n / 2) s t.kind true t.vulnerable t.moreVulnerable
  generalize hrun : (samplesOf draw t.kind true t.vulnerable t.moreVulnerable (n / 2)).run s = first
    at hfirst hvulnerable
  obtain ⟨hsecond, hothers⟩ := forall_samplesOf draw (n - n / 2) first.2 t.kind false t.safe t.moreSafe
  generalize hrun' : (samplesOf draw t.kind false t.safe t.moreSafe (n - n / 2)).run first.2 = second
    at hsecond hothers
  have hperm : ((generate draw t n).run s).1 ~ first.1 ++ second.1 := by
    unfold generate
    dsimp only
    rw [hsafe, hhalf, Int.toNat_natCast, StateT.run_bind, hrun]
    change ((Random.shuffle draw (first.1 ++ ((samplesOf draw _ _ _ _ _).run first.2).1)).run _).1 ~ _
    rw [hrun']
    exact Random.shuffle_perm draw _ _
  constructor
  · rw [hperm.countP_eq, countP_append, countP_eq_length.mpr fun x hx => (hvulnerable x hx).2.1,
      countP_eq_zero.mpr fun x hx => by simp [(hothers x hx).2.1], hfirst, Nat.add_zero]
  · rw [hperm.countP_eq, countP_append, countP_eq_zero.mpr fun x hx => by simp [(hvulnerable x hx).2.1],
      countP_eq_length.mpr fun x hx => by simp [(hothers x hx).2.1], hsecond, Nat.zero_add]
  · intro x hx
    rcases mem_append.mp (hperm.subset hx) with h | h
    · obtain ⟨hkind, hflag, hcode⟩ := hvulnerable x h
      exact ⟨hkind, by rw [hflag]; exact hcode⟩
    · obtain ⟨hkind, hflag, hcode⟩ := hothers x h
      exact ⟨hkind, by rw [hflag]; exact hcode⟩

lemma filter_flatMap_kind {f : Templates → List Sample} {ts : List Templates} (h : ∀ t, ∀ s ∈ f t, s.kind = t.kind)
    (hdistinct : ts.Pairwise (·.kind ≠ ·.kind)) (ht : t ∈ ts) : (ts.flatMap f).filter (·.kind = t.kind) = f t := by
  induction ts with
  | nil => cases ht
  | cons u us ih =>
    obtain ⟨hother, hrest⟩ := pairwise_cons.mp hdistinct
    rw [flatMap_cons, filter_append]
    rcases mem_cons.mp ht with rfl | hmem
    · have hnone : (us.flatMap f).filter (·.kind = t.kind) = [] := by
        refine filter_eq_nil_iff.mpr fun s hs => ?_
        obtain ⟨u, hu, hsu⟩ := mem_flatMap.mp hs
        simpa [h u s hsu] using (hother u hu).symm
      rw [hnone, append_nil]
      exact filter_eq_self.mpr fun s hs => decide_eq_true (h t s hs)
    · rw [ih hrest hmem, filter_eq_nil_iff.mpr fun s hs => by simpa [h u s hs] using hother t hmem, nil_append]

/-! ## Loading -/

def Sample.loaded (s : Sample) : Benchmark.Sample :=
  { code := some s.code, label := s.label, kind := some s.kind, weakness := some "", language := some "python"
    source := some Sample.source }

lemma samplesOfText_benchmarkText (samples : List Sample) :
    Benchmark.samplesOfText (benchmarkText samples) = .ok (samples.map Sample.loaded) := by
  unfold samplesOfText benchmarkText
  rw [Csv.read_write (by simp)]
  dsimp only
  rw [filter_eq_self.mpr (by simp), mapM_eq_ok_iff, forall₂_map_left_iff, forall₂_map_right_iff, forall₂_same]
  rintro ⟨code, vulnerable, kind, variant⟩ -
  have hlabel : Decimal.readInt? (Nat.repr (if vulnerable then 1 else 0)) =
      some ((if vulnerable then 1 else 0 : Nat) : Int) := by
    cases vulnerable <;> decide
  simp [Sample.ofRow, fieldOf, Sample.label, Sample.loaded, hlabel]

variable {files after : FileTree} {path : String}

/-- **Generated benchmarks load back unchanged and balanced.** Whatever is drawn, the file gives the samples in order.
Half of every kind, rounded down, are vulnerable; each has one of the texts of its kind and label as code, and these
begin and end with no blank. -/
theorem load_generated (start : Templates → σ)
    (h : files.writeText path (benchmarkText (generateAll draw start n)) = .ok after) :
    Benchmark.load after path = .ok ((generateAll draw start n).map Sample.loaded) ∧
      ∀ t ∈ allTemplates, IsBalanced t n ((generateAll draw start n).filter (·.kind = t.kind)) ∧
        ∀ vulnerable, ∀ text ∈ t.texts vulnerable, Text.strip text = text := by
  have hcontent : after.content path = .ok (.text _) := bind_eq_ok_iff.mpr ⟨_, FileTree.find_of_write h, rfl⟩
  refine ⟨bind_eq_ok_iff.mpr ⟨_, bind_eq_ok_iff.mpr ⟨_, hcontent, rfl⟩, samplesOfText_benchmarkText _⟩, ?_⟩
  intro t ht
  constructor
  · unfold generateAll
    rw [filter_flatMap_kind t (fun t s hs => ((isBalanced_generate draw t n (start t)).texts s hs).1) (by decide) ht]
    exact isBalanced_generate draw t n (start t)
  · exact strip_texts t ht

theorem firstTexts_loaded : ∃ after, FileTree.empty.writeText "benchmark.csv"
      (benchmarkText (generateAll (fun _ => pure 0) (fun _ => ()) 2)) = .ok after ∧
    Benchmark.load after "benchmark.csv" = .ok ((generateAll (fun _ => pure 0) (fun _ => ()) 2).map Sample.loaded) := by
  have hwrite : ∀ s, FileTree.empty.writeText "benchmark.csv" s =
      .ok { entries := [(["benchmark.csv"], .file (.text s))] } := fun _ => rfl
  exact ⟨_, hwrite _, (load_generated (fun _ => pure 0) 2 (fun _ => ()) (hwrite _)).1⟩

end Dataset

end CodeAudit

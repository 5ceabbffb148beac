import CodeAudit.Proofs.Regex.Language
import CodeAudit.Scan.Infrastructure

/-!
# The blocks of resources

A file with balanced resources is a sequence of runs: the lines of a resource, or one line without braces or header. A
block ends at the first line *after* its header at which no brace is open. So a resource of several lines is its own
block; one on its header alone also takes the run after it, and at the end of a file has no block. For any text the
blocks are a greedy cut (`blocks_greedy`).
-/

namespace CodeAudit.Terraform

open List

def balance : List (List Char) → Int
  | [] => 0
  | line :: lines => braceBalance line + balance lines

/-- The lines of a resource, from its header to the line at which its braces are balanced; or another line. -/
structure Run where
  first : List Char
  others : List (List Char)
  isOpen : ∀ n < others.length, 0 < balance (first :: others.take n)
  isClosed : balance (first :: others) = 0
  isPlain : isHeader first = false → others = [] ∧ '\x7b' ∉ first ∧ '\x7d' ∉ first

namespace Run

def lines (r : Run) : List (List Char) := r.first :: r.others

def blockAt (n : Nat) (r : Run) : Block := { first := n, last := n + r.others.length, lines := r.lines }

end Run

/-- A block for each resource of some runs, the first of which starts at a line `n`. -/
def ownBlocks : Nat → List Run → List Block
  | _, [] => []
  | n, r :: runs =>
    (if isHeader r.first then [r.blockAt n] else []) ++ ownBlocks (n + r.lines.length) runs

/-- The blocks of runs if a resource that is a single line goes together with the run after it. -/
def joinedBlocks : Nat → List Run → List Block
  | _, [] => []
  | n, [r] => if isHeader r.first && !r.others.isEmpty then [r.blockAt n] else []
  | n, r :: next :: runs =>
    if isHeader r.first && r.others.isEmpty then
      { first := n, last := n + next.lines.length, lines := r.first :: next.lines } ::
        joinedBlocks (n + 1 + next.lines.length) runs
    else
      (if isHeader r.first then [r.blockAt n] else []) ++ joinedBlocks (n + r.lines.length) (next :: runs)

/-! ## One block -/

variable {depth : Int} {lines xs rest : List (List Char)} {n skip : Nat} {b : Block}

/-- The line that closes a block is the first at which no brace is open. -/
lemma closingLine?_eq_some_iff : closingLine? depth lines = some k ↔ 0 < k ∧ k ≤ lines.length ∧
    depth + balance (lines.take k) ≤ 0 ∧ ∀ m < k, 0 < m → 0 < depth + balance (lines.take m) := by
  induction lines generalizing depth k with
  | nil =>
    refine ⟨nofun, fun h => ?_⟩
    rw [length_nil] at h
    omega
  | cons line lines ih =>
    have htake : ∀ m, depth + balance ((line :: lines).take (m + 1)) =
        depth + braceBalance line + balance (lines.take m) := by
      intro m
      rw [take_succ_cons, balance, Int.add_assoc]
    have hone : depth + balance ((line :: lines).take 1) = depth + braceBalance line := by simp [balance]
    rw [closingLine?]
    split
    · next hclosed =>
      constructor
      · rintro ⟨⟩
        exact ⟨by decide, by simp, hone ▸ hclosed, fun m hm hpos => by omega⟩
      · rintro ⟨hpos, -, -, hopen⟩
        rcases Nat.lt_or_eq_of_le hpos with hmore | hone'
        · have := hopen 1 hmore (by decide)
          omega
        · rw [← hone']
    · next hopen =>
      rw [Option.map_eq_some_iff]
      constructor
      · rintro ⟨k, hk, rfl⟩
        obtain ⟨hpos, hle, hclosed, hbefore⟩ := ih.mp hk
        refine ⟨by omega, by simpa using hle, htake k ▸ hclosed, ?_⟩
        rintro (- | m) hm hpos
        · omega
        rw [htake]
        rcases m with - | m
        · rw [take_zero, balance]
          omega
        · exact hbefore _ (by omega) (by omega)
      · rintro ⟨hpos, hle, hclosed, hbefore⟩
        obtain ⟨k, rfl⟩ := Nat.exists_eq_succ_of_ne_zero (Nat.ne_of_gt hpos)
        rw [htake] at hclosed
        refine ⟨k, ih.mpr ⟨?_, by simpa using hle, hclosed, fun m hm _ => htake m ▸ hbefore _ (by omega) (by omega)⟩, rfl⟩
        rcases k with - | k
        · rw [take_zero, balance] at hclosed
          omega
        · omega

lemma blocksFrom_append (n : Nat) (xs rest : List (List Char)) :
    blocksFrom xs.length n (xs ++ rest) = blocksFrom 0 (n + xs.length) rest := by
  induction xs generalizing n with
  | nil => rfl
  | cons line xs ih =>
    rw [cons_append, length_cons, blocksFrom, ih, Nat.add_assoc, Nat.add_comm 1]

/-! ## The greedy cut -/

/-- The lines from one number to another; the first line has the number 1. -/
def span (lines : List (List Char)) (i j : Nat) : List (List Char) := (lines.drop (i - 1)).take (j + 1 - i)

/-- The first line after another at which the braces since then are balanced. -/
def IsEnd (lines : List (List Char)) (i j : Nat) : Prop :=
  i < j ∧ j ≤ lines.length ∧ balance (span lines i j) ≤ 0 ∧ ∀ m, i < m → m < j → 0 < balance (span lines i m)

def IsHeaderLine (lines : List (List Char)) (i : Nat) : Prop := 0 < i ∧ ∃ line, lines[i - 1]? = some line ∧ isHeader line

structure IsBlock (lines : List (List Char)) (b : Block) : Prop where
  header : IsHeaderLine lines b.first
  text : b.text = ['\n'].intercalate (span lines b.first b.last)
  isEnd : IsEnd lines b.first b.last

/-- The blocks after a line: each header line after it is in one of them, or its braces stay open. -/
structure IsScan (lines : List (List Char)) (before : Nat) (bs : List Block) : Prop where
  blocks : ∀ b ∈ bs, before < b.first ∧ IsBlock lines b
  apart : bs.Pairwise fun a b => a.last < b.first
  complete : ∀ i, before < i → IsHeaderLine lines i → (∃ b ∈ bs, b.first ≤ i ∧ i ≤ b.last) ∨ ∀ j, ¬ IsEnd lines i j

lemma span_eq (h : lines.drop p = line :: rest) (k : Nat) : span lines (p + 1) (p + 1 + k) = line :: rest.take k := by
  rw [span, Nat.add_sub_cancel, h, show p + 1 + k + 1 - (p + 1) = k + 1 by omega, take_succ_cons]

lemma drop_succ_eq (h : lines.drop p = line :: rest) : lines.drop (p + 1) = rest := by
  rw [← tail_drop, h, tail_cons]

lemma length_eq (h : lines.drop p = line :: rest) : lines.length = p + 1 + rest.length := by
  have := congrArg length h
  rw [length_drop, length_cons] at this
  omega

lemma isEnd_iff (h : lines.drop p = line :: rest) :
    IsEnd lines (p + 1) (p + 1 + k) ↔ closingLine? (braceBalance line) rest = some k := by
  rw [closingLine?_eq_some_iff, IsEnd, span_eq h, balance, length_eq h]
  refine and_congr (by omega) (and_congr (by omega) (and_congr_right fun _ =>
    ⟨fun hopen m hm hpos => ?_, fun hopen m hm hlt => ?_⟩))
  · have := hopen (p + 1 + m) (by omega) (by omega)
    rwa [span_eq h, balance] at this
  · obtain ⟨m, rfl⟩ := Nat.exists_eq_add_of_lt hm
    rw [Nat.add_assoc (p + 1), span_eq h, balance]
    exact hopen (m + 1) (by omega) (by omega)

lemma isHeaderLine_iff (h : lines.drop p = line :: rest) : IsHeaderLine lines (p + 1) ↔ isHeader line := by
  have hline : lines[p]? = some line := by
    have := congrArg head? h
    rwa [head?_drop] at this
  simp [IsHeaderLine, hline]

lemma IsScan.back {bs : List Block} (h : IsScan lines (p + 1) bs)
    (hfirst : IsHeaderLine lines (p + 1) → ∀ j, ¬ IsEnd lines (p + 1) j) : IsScan lines p bs := by
  refine ⟨fun b hb => ⟨by have := (h.blocks b hb).1; omega, (h.blocks b hb).2⟩, h.apart, fun i hi hheader => ?_⟩
  rcases Nat.lt_or_eq_of_le hi with hlater | rfl
  · exact h.complete i hlater hheader
  · exact .inr (hfirst hheader)

lemma isScan_blocksFrom (hn : n = p + 1) (h : lines.drop p = rest) : IsScan lines (p + skip) (blocksFrom skip n rest) := by
  fun_induction blocksFrom skip n rest generalizing p with
  | case1 skip n =>
    refine ⟨nofun, .nil, ?_⟩
    rintro i hi ⟨hpos, line, hline, -⟩
    have hlength := drop_eq_nil_iff.mp h
    have hsome := (List.getElem?_eq_some_iff.mp hline).1
    omega
  | case2 skip n line rest ih =>
    have := ih (p := p + 1) (by omega) (drop_succ_eq h)
    rwa [Nat.add_right_comm] at this
  | case3 n line rest hheader k hk ih =>
    subst hn
    have hscan := ih rfl (drop_succ_eq h)
    refine ⟨fun b hb => ?_, pairwise_cons.mpr ⟨fun b hb => (hscan.blocks b hb).1, hscan.apart⟩, fun i hi hi' => ?_⟩
    · rcases mem_cons.mp hb with rfl | hb
      · exact ⟨Nat.lt_succ_self p, (isHeaderLine_iff h).mpr hheader, congrArg _ (span_eq h k).symm, (isEnd_iff h).mpr hk⟩
      · exact ⟨by have := (hscan.blocks b hb).1; omega, (hscan.blocks b hb).2⟩
    · rcases Nat.lt_or_ge (p + 1 + k) i with hlater | hin
      · exact (hscan.complete i hlater hi').imp_left fun ⟨b, hb, hin⟩ => ⟨b, mem_cons_of_mem _ hb, hin⟩
      · exact .inl ⟨_, mem_cons_self, hi, hin⟩
  | case4 n line rest hheader hnone ih =>
    subst hn
    refine (ih rfl (drop_succ_eq h)).back fun _ j hj => ?_
    obtain ⟨k, rfl⟩ := Nat.exists_eq_add_of_lt hj.1
    rw [Nat.add_assoc (p + 1), isEnd_iff h, hnone] at hj
    cases hj
  | case5 n line rest hplain ih =>
    subst hn
    exact (ih rfl (drop_succ_eq h)).back fun hheader => absurd ((isHeaderLine_iff h).mp hheader) hplain

lemma isScan_blocks (text : List Char) : IsScan (Chars.fieldsAt '\n' text) 0 (blocks text) := by
  change IsScan _ (0 + 0) (blocksFrom 0 1 _)
  exact isScan_blocksFrom rfl rfl

lemma first_lt_last {text : List Char} (h : b ∈ blocks text) : b.first < b.last :=
  ((isScan_blocks text).blocks b h).2.isEnd.1

/-- Blocks are cut greedily: each goes from a header to the first line after it at which its braces are balanced, they
follow one another, and a header is outside all of them only if its braces are never balanced. -/
theorem blocks_greedy (text : List Char) :
    (∀ b ∈ blocks text, IsBlock (Chars.fieldsAt '\n' text) b) ∧ (blocks text).Pairwise (fun a b => a.last < b.first) ∧
      ∀ i, IsHeaderLine (Chars.fieldsAt '\n' text) i →
        (∃ b ∈ blocks text, b.first = i ∨ b.first < i ∧ i ≤ b.last) ∨ ∀ j, ¬ IsEnd (Chars.fieldsAt '\n' text) i j := by
  have hscan := isScan_blocks text
  refine ⟨fun b hb => (hscan.blocks b hb).2, hscan.apart, fun i hi => ?_⟩
  refine (hscan.complete i hi.1 hi).imp_left fun ⟨b, hb, hfirst, hlast⟩ => ⟨b, hb, ?_⟩
  omega

/-- A header whose braces stay open does not keep the next one from its block. -/
theorem block_after_open : ∃ b ∈ blocks "resource \"a\" \x7b\x7b\nresource \"b\"\n".toList, b.first = 2 ∧
    b.text = "resource \"b\"\n".toList := by
  have hmem : ⟨2, 3, ["resource \"b\"".toList, []]⟩ ∈ blocks "resource \"a\" \x7b\x7b\nresource \"b\"\n".toList := by
    decide +kernel
  exact ⟨_, hmem, rfl, ((blocks_greedy _).1 _ hmem).text.trans (by decide +kernel)⟩

/-! ## Runs -/

lemma blocksFrom_block (hfirst : isHeader first) (hne : xs ≠ [])
    (hopen : ∀ k < xs.length, 0 < k → 0 < braceBalance first + balance (xs.take k))
    (hclosed : braceBalance first + balance xs = 0) :
    blocksFrom 0 n (first :: xs ++ rest) = { first := n, last := n + xs.length, lines := first :: xs } ::
      blocksFrom 0 (n + 1 + xs.length) rest := by
  have hend : closingLine? (braceBalance first) (xs ++ rest) = some xs.length := by
    rw [closingLine?_eq_some_iff, take_left]
    refine ⟨length_pos_iff.mpr hne, by simp, Int.le_of_eq hclosed, fun k hk hpos => ?_⟩
    rw [take_append_of_le_length (Nat.le_of_lt hk)]
    exact hopen k hk hpos
  rw [cons_append, blocksFrom, if_pos hfirst, hend]
  dsimp only
  rw [take_left, blocksFrom_append]

variable {r : Run}

lemma Run.blocksFrom_plain (h : isHeader r.first = false) :
    blocksFrom 0 n (r.lines ++ rest) = blocksFrom 0 (n + r.lines.length) rest := by
  rw [lines, (r.isPlain h).1, singleton_append, blocksFrom, h]
  rfl

lemma Run.blocksFrom_resource (h : isHeader r.first) (hne : r.others ≠ []) :
    blocksFrom 0 n (r.lines ++ rest) = r.blockAt n :: blocksFrom 0 (n + r.lines.length) rest := by
  rw [lines, blocksFrom_block h hne ?_ ?_, length_cons, Nat.add_right_comm]
  · rfl
  · intro k hk _
    simpa only [balance] using r.isOpen k hk
  · simpa only [balance] using r.isClosed

/-- A resource that is a single line takes the run after it, whose braces are open up to its last line. -/
lemma Run.blocksFrom_single {next : Run} (h : isHeader r.first) (hsingle : r.others = []) :
    blocksFrom 0 n (r.lines ++ (next.lines ++ rest)) =
      { first := n, last := n + next.lines.length, lines := r.first :: next.lines } ::
        blocksFrom 0 (n + 1 + next.lines.length) rest := by
  have hfirst : braceBalance r.first = 0 := by simpa [balance, hsingle] using r.isClosed
  rw [lines, hsingle, cons_append, nil_append, ← cons_append]
  refine blocksFrom_block h (cons_ne_nil _ _) ?_ ?_
  · rw [hfirst, lines]
    rintro (- | k) hk hpos
    · cases hpos
    · simpa using next.isOpen k (by simpa using hk)
  · rw [hfirst, Int.zero_add]
    exact next.isClosed

lemma blocksFrom_runs (n : Nat) (runs : List Run) :
    blocksFrom 0 n (runs.flatMap Run.lines) = joinedBlocks n runs := by
  fun_induction joinedBlocks n runs with
  | case1 => rfl
  | case2 n r h =>
    obtain ⟨hheader, hne⟩ : isHeader r.first ∧ r.others ≠ [] := by simpa using h
    rw [flatMap_cons, Run.blocksFrom_resource hheader hne, flatMap_nil, blocksFrom]
  | case3 n r h =>
    cases hheader : isHeader r.first with
    | false => rw [flatMap_cons, r.blocksFrom_plain hheader, flatMap_nil, blocksFrom]
    | true =>
      have hsingle : r.others = [] := by simpa [hheader] using h
      rw [flatMap_singleton, Run.lines, hsingle, blocksFrom, if_pos hheader, closingLine?, blocksFrom]
  | case4 n r next runs h ih =>
    obtain ⟨hheader, hsingle⟩ : isHeader r.first ∧ r.others = [] := by simpa using h
    rw [flatMap_cons, flatMap_cons, Run.blocksFrom_single hheader hsingle, ih]
  | case5 n r next runs h ih =>
    rw [flatMap_cons, ← ih]
    cases hheader : isHeader r.first with
    | false => rw [r.blocksFrom_plain hheader, if_neg Bool.false_ne_true, nil_append]
    | true =>
      have hne : r.others ≠ [] := by simpa [hheader] using h
      rw [r.blocksFrom_resource hheader hne, if_pos rfl, singleton_append]

lemma joinedBlocks_eq_ownBlocks (h : ∀ r ∈ runs, isHeader r.first → r.others ≠ []) (n : Nat) :
    joinedBlocks n runs = ownBlocks n runs := by
  fun_induction joinedBlocks n runs with
  | case1 => rfl
  | case2 n r hr =>
    rw [ownBlocks, if_pos (Bool.and_eq_true_iff.mp hr).1]
    rfl
  | case3 n r hr =>
    have hplain : isHeader r.first = false := by
      have := h r mem_cons_self
      simp_all
    rw [ownBlocks, hplain]
    rfl
  | case4 n r next runs hr ih =>
    obtain ⟨hheader, hsingle⟩ : isHeader r.first ∧ r.others = [] := by simpa using hr
    exact absurd hsingle (h r mem_cons_self hheader)
  | case5 n r next runs hr ih =>
    rw [ownBlocks, ih fun r hr => h r (mem_cons_of_mem _ hr)]

lemma blockAt_mem_ownBlocks (h : r ∈ runs) (hheader : isHeader r.first) (n : Nat) :
    ∃ m, r.blockAt m ∈ ownBlocks n runs := by
  induction runs generalizing n with
  | nil => cases h
  | cons first runs ih =>
    rw [ownBlocks]
    rcases mem_cons.mp h with rfl | hrest
    · exact ⟨n, mem_append_left _ (by rw [if_pos hheader]; exact mem_cons_self)⟩
    · obtain ⟨m, hm⟩ := ih hrest _
      exact ⟨m, mem_append_right _ hm⟩

/-- The blocks of a file are its resources, if none is a single line: such a one goes together with what stands after
it. -/
theorem own_block_iff {text : List Char} {runs : List Run} (hlines : Chars.fieldsAt '\n' text = runs.flatMap Run.lines) :
    blocks text = joinedBlocks 1 runs ∧
      (blocks text = ownBlocks 1 runs ↔ ∀ r ∈ runs, isHeader r.first = true → r.others ≠ []) := by
  have hjoined : blocks text = joinedBlocks 1 runs := by
    rw [blocks, hlines]
    exact blocksFrom_runs 1 runs
  refine ⟨hjoined, fun hown r hr hheader hsingle => ?_, fun hall => hjoined.trans (joinedBlocks_eq_ownBlocks hall 1)⟩
  -- a block of one line would start and end at the same line
  obtain ⟨m, hm⟩ := blockAt_mem_ownBlocks hr hheader 1
  rw [← hown] at hm
  have hlast := first_lt_last hm
  rw [Run.blockAt, hsingle] at hlast
  exact absurd hlast (Nat.lt_irrefl m)

def bareResource : Run where
  first := "resource \"a\" \"b\" \x7b\x7d".toList
  others := []
  isOpen := fun _ h => absurd h (Nat.not_lt_zero _)
  isClosed := by decide
  isPlain := fun h => absurd h (by decide +kernel)

def longResource : Run where
  first := "resource \"c\" \"d\" \x7b".toList
  others := ["\x7d".toList]
  isOpen := by decide
  isClosed := by decide
  isPlain := fun h => absurd h (by decide +kernel)

/-- Two resources, the first of which is a single line, are one block. -/
theorem bareResource_joined :
    blocks "resource \"a\" \"b\" \x7b\x7d\nresource \"c\" \"d\" \x7b\n\x7d".toList =
        [{ first := 1, last := 3, lines := bareResource.lines ++ longResource.lines }] ∧
      blocks "resource \"a\" \"b\" \x7b\x7d\nresource \"c\" \"d\" \x7b\n\x7d".toList ≠
        ownBlocks 1 [bareResource, longResource] := by
  have hlines : Chars.fieldsAt '\n' "resource \"a\" \"b\" \x7b\x7d\nresource \"c\" \"d\" \x7b\n\x7d".toList =
      [bareResource, longResource].flatMap Run.lines := by decide
  obtain ⟨hjoined, hown⟩ := own_block_iff hlines
  have hheader : isHeader bareResource.first = true := by decide +kernel
  refine ⟨hjoined.trans ?_, fun h => hown.mp h bareResource mem_cons_self hheader rfl⟩
  rw [joinedBlocks, hheader]
  rfl

end CodeAudit.Terraform

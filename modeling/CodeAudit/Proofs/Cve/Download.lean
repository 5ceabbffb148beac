import CodeAudit.Cve.Feed
import CodeAudit.Proofs.Actions
import CodeAudit.Proofs.Json.Document

/-!
# Downloads that fail

A download that fails before its file is opened leaves all files as they were. But the file is opened before the answer
is read: an answer that is no document leaves it empty (`kept_iff_of_failed`).
-/

namespace CodeAudit

open Proofs Proofs.Steps Action

lemma FileTree.exists_write_again {t after : FileTree} (h : t.write path c = .ok after)
    (c' : Content) : ∃ last, after.write path c' = .ok last := by
  unfold write at h ⊢
  dsimp only at h ⊢
  split at h
  · cases h
  · cases h
  next place hobstacle hlocal =>
    split at h
    · cases h
    next hempty =>
      split at h
      · cases h
      next hplace =>
        rw [Bool.or_eq_true, not_or, beq_iff_eq] at hplace
        cases h
        rw [home_put, obstacleOn?_put hplace.1 hobstacle, hlocal]
        dsimp only
        rw [if_neg hempty, if_neg]
        · exact ⟨_, rfl⟩
        · rw [Bool.or_eq_true, not_or, entry?_put_self]
          exact ⟨by simp, hplace.2⟩

namespace CveFeed

variable {key : Option String} {year path : String} {host after : Host} {fault : Fault}

/-- What the server replies to the request for a year. -/
def reply (key : Option String) (year : String) (host : Host) : Reply :=
  (host.lookup.network.send (request key year)).1

lemma on_writeText (h : Text.isEncodable text) (host : Host) :
    on (writeText path text) host = match host.files.writeText path text with
      | .ok files => (.ok (), { host with files })
      | .error fault => (.error fault, host) := by
  have hjoined : String.join [text] = text := by simp [String.join]
  unfold writeText writeParts changing
  rw [List.takeWhile_cons_of_pos h, List.takeWhile_nil]
  dsimp only
  rw [on_bind, on_bind, on_get]
  dsimp only
  rw [on_bind, on_ofExcept, hjoined]
  cases host.files.writeText path text <;> rfl

/-- A download fails for the reply, for the file, or for the body of the answer when the file is open. -/
lemma failed_cases (h : on (fetch key year path) host = (.error fault, after)) :
    after.files = host.files ∧ (bodyOf (reply key year host) = .error fault ∨
        host.files.writeText path "" = .error fault) ∨
      host.files.writeText path "" = .ok after.files ∧
        ∃ body, bodyOf (reply key year host) = .ok body ∧ body.read = .error fault := by
  unfold fetch at h
  rw [on_bind] at h
  change on (Action.ofExcept (bodyOf (reply key year host)) >>= _) _ = _ at h
  rw [on_bind, on_ofExcept] at h
  cases hbody : bodyOf (reply key year host) with
  | error _ =>
    rw [hbody] at h
    cases h
    exact .inl ⟨rfl, .inl rfl⟩
  | ok body =>
    rw [hbody] at h
    dsimp only at h
    rw [on_bind, on_writeText (by decide)] at h
    dsimp only at h
    cases hopened : host.files.writeText path "" with
    | error _ =>
      rw [hopened] at h
      cases h
      exact .inl ⟨rfl, .inr rfl⟩
    | ok emptied =>
      rw [hopened] at h
      dsimp only at h
      rw [on_bind, on_ofExcept] at h
      cases hread : body.read with
      | error _ =>
        rw [hread] at h
        cases h
        exact .inr ⟨rfl, body, rfl, hread⟩
      | ok document =>
        -- a document is written in full
        obtain ⟨last, hlast⟩ : ∃ last, emptied.writeText path (Json.write .line document) = .ok last :=
          FileTree.exists_write_again hopened _
        rw [hread] at h
        dsimp only at h
        rw [on_writeText (Json.arePlain_write Json.Layout.isPlain_line document).isEncodable] at h
        dsimp only at h
        rw [hlast] at h
        cases h

/-- After a failed download the file is what it was, unless the answer was taken and is no document: then it is empty.
-/
theorem kept_iff_of_failed (h : on (fetch key year path) host = (.error fault, after)) :
    (after.files = host.files ∨ after.files.find path = .ok (.file (.text ""))) ∧
      (after.files.find path = host.files.find path ↔
        host.files.find path = .ok (.file (.text "")) ∨ host.files.writeText path "" = .error fault ∨
          ∀ body, bodyOf (reply key year host) = .ok body → ∃ document, body.read = .ok document) := by
  rcases failed_cases h with ⟨hsame, hearly⟩ | ⟨hopened, body, hbody, hread⟩
  · refine ⟨.inl hsame, iff_of_true (by rw [hsame]) ?_⟩
    rcases hearly with hrefused | hclosed
    · exact .inr (.inr fun body hbody => nomatch hrefused.symm.trans hbody)
    · exact .inr (.inl hclosed)
  · have hempty : after.files.find path = .ok (.file (.text "")) := FileTree.find_of_write hopened
    refine ⟨.inr hempty, fun heq => .inl (heq ▸ hempty), ?_⟩
    rintro (hold | hclosed | hdocument)
    · rw [hempty, hold]
    · cases hopened.symm.trans hclosed
    · obtain ⟨document, hdocument⟩ := hdocument body hbody
      cases hread.symm.trans hdocument

/-- A feed from before, and a server that answers with a text that is no document. -/
def oldFeed : Host where
  __ := hostOf (FileTree.empty.put ["o.json"] (.file (.text "old")))
  lookup := { network := { replies := [.answer 200 (.text "busy")] }, cache := .empty (.int 0), clock := 0 }

theorem oldFeed_lost : ∃ fault after, on (fetch none "2024" "o.json") oldFeed = (.error fault, after) ∧
    after.files.find "o.json" ≠ oldFeed.files.find "o.json" ∧ after.files.find "o.json" = .ok (.file (.text "")) := by
  have hfails : (on (fetch none "2024" "o.json") oldFeed).1.isOk = false := by decide +kernel
  obtain ⟨fault, hfault⟩ := isOk_eq_false_iff.mp hfails
  rcases hrun : on (fetch none "2024" "o.json") oldFeed with ⟨result, after⟩
  rw [hrun] at hfault
  cases hfault
  obtain ⟨hfiles, hkept⟩ := kept_iff_of_failed hrun
  have hchanged : after.files.find "o.json" ≠ oldFeed.files.find "o.json" := by
    rw [Ne, hkept]
    rintro (hold | hclosed | hdocument)
    · exact absurd (Content.text.inj (Entry.file.inj (Except.ok.inj hold))) (by decide)
    · cases hclosed
    · obtain ⟨document, hdocument⟩ := hdocument _ rfl
      have hread : (Json.read "busy").isOk = false := by decide +kernel
      change Json.read "busy" = _ at hdocument
      rw [hdocument] at hread
      cases hread
  exact ⟨fault, after, rfl, hchanged, hfiles.resolve_left fun hsame => hchanged (by rw [hsame])⟩

end CveFeed

end CodeAudit

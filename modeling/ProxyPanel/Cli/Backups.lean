import Mathlib.Data.List.Nodup
import Mathlib.Data.List.Sort
import Mathlib.Logic.Function.Basic
import Mathlib.Order.Basic

/-!
# The backup directory

Backups of the binary and of the web console stand in one directory, each under a label and
with the time of its last modification.  A command finds the newest of a kind, and pruning
removes all others.  A `Shelf` is the backups of one kind whose newest is also the last one
that was made and of the highest version: copying a later release keeps it (`Shelf.copy`), so
does pruning (`Shelf.prune`), and what is found is the last backup (`Shelf.latest`).
-/

namespace ProxyPanel.Cli

/-! ### The backup directory -/

/-- A backup in the directory, with the time of its last modification. -/
structure Entry where
  label : String
  modified : Nat
  deriving DecidableEq

/-- The backups by their times, the newest first. -/
def newestFirst (entries : List Entry) : List Entry :=
  entries.mergeSort fun a b => decide (b.modified ≤ a.modified)

def findLatestBackupIn (entries : List Entry) : Option String :=
  (newestFirst entries).head?.map (·.label)

/-- What `prune_backups_in` removes; a removal that fails is passed over. -/
def removedBackups (entries : List Entry) (keeps : Entry → Bool) : List Entry :=
  ((newestFirst entries).drop 1).filter fun e => !keeps e

/-- The directory after a backup under a label.  Copying into a directory that is there changes
its time only where this creates a file at its top. -/
def copied {α : Type} (label : String) (now : Nat) (touched : Bool) (content : Option α)
    (entries : List Entry) : List Entry :=
  match content with
  | none => entries.filter (·.label ≠ label)
  | some _ =>
    ⟨label, match entries.find? (·.label = label) with
      | some e => if touched then now else e.modified
      | none => now⟩ :: entries.filter (·.label ≠ label)

def withoutBackups {α : Type} (removed : List Entry) (backups : String → Option α) :
    String → Option α := fun label => if label ∈ removed.map (·.label) then none else backups label

/-! ### Choosing a backup -/

/-- The backup under a label was modified after all others. -/
def Newest (entries : List Entry) (label : String) : Prop :=
  ∃ e ∈ entries, e.label = label ∧ ∀ x ∈ entries, x.label ≠ label → x.modified < e.modified

theorem newestFirst_perm (entries : List Entry) : (newestFirst entries).Perm entries :=
  List.mergeSort_perm _ _

theorem newestFirst_pairwise (entries : List Entry) :
    (newestFirst entries).Pairwise fun a b => b.modified ≤ a.modified := by
  have htrans : ∀ a b c : Entry, decide (b.modified ≤ a.modified) = true →
      decide (c.modified ≤ b.modified) = true → decide (c.modified ≤ a.modified) = true := by
    intro a b c hab hbc
    exact decide_eq_true (Nat.le_trans (of_decide_eq_true hbc) (of_decide_eq_true hab))
  have htotal : ∀ a b : Entry,
      (decide (b.modified ≤ a.modified) || decide (a.modified ≤ b.modified)) = true := by
    intro a b
    rw [Bool.or_eq_true, decide_eq_true_eq, decide_eq_true_eq]
    exact Nat.le_total b.modified a.modified
  have hsorted := List.pairwise_mergeSort htrans htotal entries
  exact hsorted.imp fun h => of_decide_eq_true h

/-- In whatever order the directory is read, its newest backup comes first. -/
theorem exists_newestFirst {entries listing : List Entry} {label : String}
    (hnewest : Newest entries label) (hperm : listing.Perm entries) :
    ∃ e es, newestFirst listing = e :: es ∧ e.label = label := by
  obtain ⟨e, he, rfl, hothers⟩ := hnewest
  have hmem : ∀ x, x ∈ newestFirst listing ↔ x ∈ entries := fun x =>
    ((newestFirst_perm listing).trans hperm).mem_iff
  have hsorted := newestFirst_pairwise listing
  cases hlist : newestFirst listing with
  | nil =>
    have hfound := (hmem e).mpr he
    rw [hlist] at hfound
    cases hfound
  | cons x xs =>
    refine ⟨x, xs, rfl, ?_⟩
    have hx : x ∈ entries := (hmem x).mp (by rw [hlist]; exact List.mem_cons_self)
    have hfound := (hmem e).mpr he
    rw [hlist] at hfound hsorted
    by_contra hne
    have hlt := hothers x hx hne
    rcases List.mem_cons.mp hfound with rfl | hlater
    · exact hne rfl
    · exact absurd ((List.pairwise_cons.mp hsorted).1 e hlater) (Nat.not_le_of_lt hlt)

theorem findLatestBackupIn_eq {entries listing : List Entry} {label : String}
    (hnewest : Newest entries label) (hperm : listing.Perm entries) :
    findLatestBackupIn listing = some label := by
  obtain ⟨e, es, hlist, rfl⟩ := exists_newestFirst hnewest hperm
  rw [findLatestBackupIn, hlist]
  rfl

/-- The newest backup is not removed. -/
theorem label_ne_of_mem_removedBackups {entries listing : List Entry} {label : String}
    (hnewest : Newest entries label) (hperm : listing.Perm entries)
    (hnodup : (entries.map (·.label)).Nodup) {keeps : Entry → Bool} {e : Entry}
    (he : e ∈ removedBackups listing keeps) : e.label ≠ label := by
  obtain ⟨x, xs, hlist, rfl⟩ := exists_newestFirst hnewest hperm
  have hlabels : ((newestFirst listing).map (·.label)).Nodup :=
    (((newestFirst_perm listing).trans hperm).map (·.label)).nodup_iff.mpr hnodup
  have hrest := List.mem_of_mem_filter he
  rw [hlist] at hlabels hrest
  rw [List.map_cons, List.nodup_cons] at hlabels
  exact fun heq => hlabels.1 (heq ▸ List.mem_map_of_mem hrest)

/-! ### A shelf of backups -/

section Shelf

variable {α V : Type} [LinearOrder V] (rank : String → V)

/-- The backups of one kind: every one is listed once, and the last one is the newest and of
the highest version. -/
structure Shelf (entries : List Entry) (backups : String → Option α)
    (saved : Option (String × α)) : Prop where
  nodup : (entries.map (·.label)).Nodup
  listed : ∀ label, backups label ≠ none → label ∈ entries.map (·.label)
  empty : saved = none → entries = []
  newest : ∀ s ∈ saved, Newest entries s.1
  content : ∀ s ∈ saved, backups s.1 = some s.2
  older : ∀ s ∈ saved, ∀ e ∈ entries, e.label ≠ s.1 → rank e.label < rank s.1

namespace Shelf

variable {rank} {entries : List Entry} {backups : String → Option α} {saved : Option (String × α)}

/-- A label later than the last backup has no backup yet. -/
theorem not_listed (h : Shelf rank entries backups saved) {label : String}
    (hlater : ∀ s ∈ saved, rank s.1 < rank label) : ∀ e ∈ entries, e.label ≠ label := by
  rintro e he rfl
  cases hsaved : saved with
  | none =>
    rw [h.empty hsaved] at he
    cases he
  | some s =>
    have hrank : rank s.1 < rank e.label := hlater s hsaved
    by_cases hlabel : e.label = s.1
    · rw [hlabel] at hrank
      exact lt_irrefl _ hrank
    · exact lt_asymm hrank (h.older s hsaved e he hlabel)

/-- Under the label of a release there is no backup, or one of this release. -/
theorem at_label (h : Shelf rank entries backups saved) {label : String} {content : α}
    (hlater : ∀ s ∈ saved, rank s.1 < rank label ∨ s = (label, content)) :
    backups label = none ∨ backups label = some content := by
  by_cases hsaved : saved = some (label, content)
  · exact .inr (h.content _ hsaved)
  · refine .inl ?_
    by_contra hbackup
    obtain ⟨e, he, hlabel⟩ := List.mem_map.mp (h.listed label hbackup)
    refine h.not_listed (fun s hs => ?_) e he hlabel
    rcases hlater s hs with hlt | rfl
    · exact hlt
    · exact absurd hs hsaved

/-- **A copy** of a release that is later than the last backup, or is the last backup again. -/
theorem copy (h : Shelf rank entries backups saved) {label : String} {content : α} {now : Nat}
    (touched : Bool) (hnow : ∀ e ∈ entries, e.modified < now)
    (hlater : ∀ s ∈ saved, rank s.1 < rank label ∨ s = (label, content)) :
    Shelf rank (copied label now touched (some content) entries)
      (Function.update backups label (some content)) (some (label, content)) := by
  -- The time of the copy is that of a backup which was the newest, or the present.
  have htime : ∀ x ∈ entries, x.label ≠ label →
      x.modified < (match entries.find? (·.label = label) with
        | some e => if touched then now else e.modified
        | none => now) := by
    intro x hx hne
    cases hfind : entries.find? (·.label = label) with
    | none => exact hnow x hx
    | some e =>
      have he : e ∈ entries := List.mem_of_find?_eq_some hfind
      have hlabel : e.label = label := by
        have hfound := List.find?_some hfind
        exact of_decide_eq_true hfound
      cases touched with
      | true => exact hnow x hx
      | false =>
        have hsaved : saved = some (label, content) := by
          by_contra hsaved
          refine h.not_listed (fun s hs => ?_) e he hlabel
          rcases hlater s hs with hlt | rfl
          · exact hlt
          · exact absurd hs hsaved
        obtain ⟨y, hy, hy', hothers⟩ := h.newest _ hsaved
        have hsame : y = e := List.inj_on_of_nodup_map h.nodup hy he (hy'.trans hlabel.symm)
        rw [← hsame]
        exact hothers x hx hne
  have hrest : ∀ x ∈ entries.filter (·.label ≠ label), x ∈ entries ∧ x.label ≠ label := by
    intro x hx
    obtain ⟨hmem, hne⟩ := List.mem_filter.mp hx
    exact ⟨hmem, of_decide_eq_true hne⟩
  refine ⟨?_, ?_, (fun hnone => by cases hnone), ?_, ?_, ?_⟩
  · refine List.nodup_cons.mpr ⟨fun hmem => ?_, h.nodup.sublist (List.filter_sublist.map _)⟩
    obtain ⟨x, hx, hlabel⟩ := List.mem_map.mp hmem
    exact (hrest x hx).2 hlabel
  · intro other hother
    by_cases hsame : other = label
    · rw [hsame]
      exact List.mem_cons_self
    · rw [Function.update_of_ne hsame] at hother
      obtain ⟨x, hx, rfl⟩ := List.mem_map.mp (h.listed other hother)
      exact List.mem_cons_of_mem _
        (List.mem_map_of_mem (List.mem_filter.mpr ⟨hx, decide_eq_true hsame⟩))
  · rintro s ⟨⟩
    refine ⟨_, List.mem_cons_self, rfl, fun x hx hne => ?_⟩
    rcases List.mem_cons.mp hx with rfl | hx
    · exact absurd rfl hne
    · exact htime x (hrest x hx).1 hne
  · rintro s ⟨⟩
    exact Function.update_self _ _ _
  · rintro s ⟨⟩ x hx hne
    rcases List.mem_cons.mp hx with rfl | hx
    · exact absurd rfl hne
    · cases hsaved : saved with
      | none =>
        have hmem := (hrest x hx).1
        rw [h.empty hsaved] at hmem
        cases hmem
      | some s =>
        rcases hlater s hsaved with hlt | rfl
        · by_cases hlast : x.label = s.1
          · rw [hlast]
            exact hlt
          · exact lt_trans (h.older s hsaved x (hrest x hx).1 hlast) hlt
        · exact h.older _ hsaved x (hrest x hx).1 hne

/-- **Pruning** keeps the last backup. -/
theorem prune (h : Shelf rank entries backups saved) {listing : List Entry}
    (hperm : listing.Perm entries) (keeps : Entry → Bool) :
    Shelf rank (entries.filter (· ∉ removedBackups listing keeps))
      (withoutBackups (removedBackups listing keeps) backups) saved := by
  have hkept : ∀ x ∈ entries.filter (· ∉ removedBackups listing keeps), x ∈ entries :=
    fun x hx => List.mem_of_mem_filter hx
  refine ⟨h.nodup.sublist (List.filter_sublist.map _), ?_, ?_, ?_, ?_, ?_⟩
  · intro label hlabel
    rw [withoutBackups] at hlabel
    split at hlabel
    · exact absurd rfl hlabel
    · rename_i hstays
      obtain ⟨x, hx, rfl⟩ := List.mem_map.mp (h.listed label hlabel)
      refine List.mem_map_of_mem (List.mem_filter.mpr ⟨hx, decide_eq_true fun hremoved => ?_⟩)
      exact hstays (List.mem_map_of_mem hremoved)
  · intro hnone
    rw [h.empty hnone]
    rfl
  · intro s hs
    obtain ⟨e, he, hlabel, hothers⟩ := h.newest s hs
    refine ⟨e, List.mem_filter.mpr ⟨he, decide_eq_true fun hremoved => ?_⟩, hlabel,
      fun x hx => hothers x (hkept x hx)⟩
    exact label_ne_of_mem_removedBackups (h.newest s hs) hperm h.nodup hremoved hlabel
  · intro s hs
    rw [withoutBackups, if_neg ?_]
    · exact h.content s hs
    · intro hremoved
      obtain ⟨x, hx, hlabel⟩ := List.mem_map.mp hremoved
      exact label_ne_of_mem_removedBackups (h.newest s hs) hperm h.nodup hx hlabel
  · exact fun s hs x hx => h.older s hs x (hkept x hx)

/-- **The backup that is found** is the last one. -/
theorem latest (h : Shelf rank entries backups saved) {listing : List Entry}
    (hperm : listing.Perm entries) : findLatestBackupIn listing = saved.map Prod.fst := by
  cases hsaved : saved with
  | none =>
    rw [h.empty hsaved] at hperm
    rw [hperm.eq_nil, findLatestBackupIn, newestFirst, List.mergeSort_nil]
    rfl
  | some s => exact findLatestBackupIn_eq (h.newest s hsaved) hperm

end Shelf

end Shelf

end ProxyPanel.Cli

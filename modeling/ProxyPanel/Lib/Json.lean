import Mathlib.Algebra.Ring.Int.Defs
import Mathlib.Algebra.Ring.Nat
import Mathlib.Data.List.Induction
import Mathlib.Tactic.Common

/-!
# JSON values

A value of a JSON library whose objects are maps with sorted keys.  An object is
the list of its entries; `insertEntry` puts a key in its place or replaces the
value that is there, and `lookup` finds the first entry of a key.  The laws used
afterwards are `get_set_self` and `get_set_of_ne`: nothing later looks at the
order of the entries.
-/

namespace ProxyPanel

/-- `num` holds the integers (a machine word of either sign), `float` the text of
any other number. -/
inductive Json where
  | null
  | bool (b : Bool)
  | num (n : Int)
  | float (text : String)
  | str (s : String)
  | arr (items : List Json)
  | obj (entries : List (String × Json))
  deriving Repr, Inhabited

namespace Json

/-! ### Objects -/

def insertEntry (k : String) (v : Json) : List (String × Json) → List (String × Json)
  | [] => [(k, v)]
  | (l, w) :: es =>
    if k = l then (k, v) :: es
    else if k < l then (k, v) :: (l, w) :: es
    else (l, w) :: insertEntry k v es

theorem lookup_insertEntry_self (k : String) (v : Json) (es : List (String × Json)) :
    (insertEntry k v es).lookup k = some v := by
  induction es with
  | nil => simp [insertEntry]
  | cons e es ih =>
    obtain ⟨l, w⟩ := e
    rw [insertEntry]
    by_cases hkl : k = l
    · simp [hkl]
    · by_cases hlt : k < l
      · simp [hkl, hlt]
      · rw [if_neg hkl, if_neg hlt, List.lookup_cons, beq_false_of_ne hkl]
        exact ih

theorem lookup_insertEntry_of_ne {k k' : String} (h : k' ≠ k) (v : Json)
    (es : List (String × Json)) : (insertEntry k v es).lookup k' = es.lookup k' := by
  induction es with
  | nil => simp [insertEntry, List.lookup_cons, beq_false_of_ne h]
  | cons e es ih =>
    obtain ⟨l, w⟩ := e
    rw [insertEntry]
    by_cases hkl : k = l
    · subst hkl
      rw [if_pos rfl, List.lookup_cons, List.lookup_cons, beq_false_of_ne h]
    · by_cases hlt : k < l
      · rw [if_neg hkl, if_pos hlt, List.lookup_cons, beq_false_of_ne h]
      · rw [if_neg hkl, if_neg hlt, List.lookup_cons, List.lookup_cons, ih]

/-- An object from its entries, a later entry replacing an earlier one. -/
def mkObj (es : List (String × Json)) : Json :=
  obj (es.foldl (fun acc e => insertEntry e.1 e.2 acc) [])

/-! ### Reading -/

def get : Json → String → Option Json
  | obj es, k => es.lookup k
  | _, _ => none

def asStr : Json → Option String
  | str s => some s
  | _ => none

def asArray : Json → Option (List Json)
  | arr xs => some xs
  | _ => none

def asObject : Json → Option (List (String × Json))
  | obj es => some es
  | _ => none

/-- The value as an unsigned 64-bit integer. -/
def asU64 : Json → Option Nat
  | num n => if 0 ≤ n ∧ n < 2 ^ 64 then some n.toNat else none
  | _ => none

def asBool : Json → Option Bool
  | bool b => some b
  | _ => none

def isObject (j : Json) : Bool := j.asObject.isSome
def isArray (j : Json) : Bool := j.asArray.isSome

/-- The string under a key. -/
def getStr (j : Json) (k : String) : Option String := (j.get k).bind asStr

/-- The array under a key. -/
def getArr (j : Json) (k : String) : Option (List Json) := (j.get k).bind asArray

/-- The unsigned integer under a key. -/
def getU64 (j : Json) (k : String) : Option Nat := (j.get k).bind asU64

/-- The first string found under the keys. -/
def getStrAny (j : Json) (ks : List String) : Option String := ks.findSome? j.getStr

/-! ### Writing -/

/-- Insertion into an object.  Any other value stays as it is. -/
def set (j : Json) (k : String) (v : Json) : Json :=
  match j with
  | obj es => obj (insertEntry k v es)
  | j => j

/-- Indexing for writing: `null` becomes an object first. -/
def setIndex (j : Json) (k : String) (v : Json) : Json :=
  match j with
  | null => obj [(k, v)]
  | j => j.set k v

def remove (j : Json) (k : String) : Json :=
  match j with
  | obj es => obj (es.filter (fun e => e.1 ≠ k))
  | j => j

/-- Every entry of `es` inserted in turn. -/
def setAll (j : Json) (es : List (String × Json)) : Json :=
  es.foldl (fun acc e => acc.set e.1 e.2) j

/-- Append to an array.  Any other value stays as it is. -/
def push (j : Json) (item : Json) : Json :=
  match j with
  | arr xs => arr (xs ++ [item])
  | j => j

/-- The value under a key replaced by a function of it. -/
def modify (j : Json) (k : String) (f : Json → Json) : Json :=
  j.setIndex k (f ((j.get k).getD null))

@[simp] theorem get_obj (es : List (String × Json)) (k : String) : (obj es).get k = es.lookup k :=
  rfl

theorem get_of_not_isObject {j : Json} (h : j.isObject = false) (k : String) : j.get k = none := by
  cases j <;> first | rfl | simp [isObject, asObject] at h

theorem exists_entries_of_isObject {j : Json} (h : j.isObject = true) : ∃ es, j = obj es := by
  cases j <;> first | exact ⟨_, rfl⟩ | simp [isObject, asObject] at h

theorem set_of_not_isObject {j : Json} (h : j.isObject = false) (k : String) (v : Json) :
    j.set k v = j := by
  cases j <;> first | rfl | simp [isObject, asObject] at h

@[simp] theorem isObject_set (j : Json) (k : String) (v : Json) :
    (j.set k v).isObject = j.isObject := by
  cases j <;> rfl

theorem get_set_self {j : Json} (h : j.isObject = true) (k : String) (v : Json) :
    (j.set k v).get k = some v := by
  obtain ⟨es, rfl⟩ := exists_entries_of_isObject h
  exact lookup_insertEntry_self k v es

theorem get_set_of_ne (j : Json) {k k' : String} (h : k' ≠ k) (v : Json) :
    (j.set k v).get k' = j.get k' := by
  cases j <;> first | rfl | exact lookup_insertEntry_of_ne h v _

theorem get_set_congr {s t : Json} {k : String} (hobject : s.isObject = t.isObject)
    (hget : s.get k = t.get k) (k' : String) (v : Json) : (s.set k' v).get k = (t.set k' v).get k := by
  by_cases hk : k = k'
  · subst hk
    cases ht : t.isObject with
    | true => rw [get_set_self (hobject.trans ht), get_set_self ht]
    | false => rw [set_of_not_isObject (hobject.trans ht), set_of_not_isObject ht, hget]
  · rw [get_set_of_ne s hk, get_set_of_ne t hk, hget]

theorem get_remove_of_ne (j : Json) {k k' : String} (h : k' ≠ k) :
    (j.remove k).get k' = j.get k' := by
  cases j with
  | obj es =>
    rw [remove, get_obj, get_obj]
    induction es with
    | nil => rfl
    | cons e es ih =>
      by_cases he : e.1 = k
      · rw [List.filter_cons_of_neg (by simp [he]), ih, List.lookup_cons,
          beq_false_of_ne (fun heq => h (heq.trans he))]
      · rw [List.filter_cons_of_pos (by simp [he]), List.lookup_cons, List.lookup_cons, ih]
  | null => rfl
  | _ => rfl

theorem getStr_set_of_ne (j : Json) {k k' : String} (h : k' ≠ k) (v : Json) :
    (j.set k v).getStr k' = j.getStr k' := by
  rw [getStr, get_set_of_ne j h, getStr]

theorem getArr_set_of_ne (j : Json) {k k' : String} (h : k' ≠ k) (v : Json) :
    (j.set k v).getArr k' = j.getArr k' := by
  rw [getArr, get_set_of_ne j h, getArr]

theorem getStrAny_set_of_not_mem (j : Json) {k : String} {ks : List String} (h : k ∉ ks) (v : Json) :
    (j.set k v).getStrAny ks = j.getStrAny ks := by
  induction ks with
  | nil => rfl
  | cons l ks ih =>
    rw [List.mem_cons, not_or] at h
    rw [getStrAny, getStrAny, List.findSome?_cons, List.findSome?_cons,
      getStr_set_of_ne j (Ne.symm h.1), ← getStrAny, ← getStrAny, ih h.2]

theorem getStrAny_singleton (j : Json) (k : String) : j.getStrAny [k] = j.getStr k := by
  rw [getStrAny, List.findSome?_cons]
  cases j.getStr k <;> rfl

@[simp] theorem isObject_mkObj (es : List (String × Json)) : (mkObj es).isObject = true := rfl

theorem mkObj_append (es : List (String × Json)) (k : String) (v : Json) :
    mkObj (es ++ [(k, v)]) = (mkObj es).set k v := by
  simp [mkObj, set, List.foldl_append]

/-- The last entry of a key is the one that stays. -/
theorem get_mkObj (es : List (String × Json)) (k : String) :
    (mkObj es).get k = es.reverse.lookup k := by
  induction es using List.reverseRecOn with
  | nil => rfl
  | append_singleton es e ih =>
    obtain ⟨l, v⟩ := e
    rw [mkObj_append, List.reverse_append, List.reverse_singleton, List.singleton_append,
      List.lookup_cons]
    by_cases h : k = l
    · subst h
      rw [get_set_self (isObject_mkObj es), beq_self_eq_true]
    · rw [get_set_of_ne _ h, beq_false_of_ne h, ih]

theorem get_setAll_of_not_mem (j : Json) {es : List (String × Json)} {k : String}
    (h : ∀ e ∈ es, e.1 ≠ k) : (j.setAll es).get k = j.get k := by
  rw [setAll]
  induction es generalizing j with
  | nil => rfl
  | cons e es ih =>
    rw [List.foldl_cons, ih _ fun e' he' => h e' (List.mem_cons_of_mem e he'),
      get_set_of_ne j (h e List.mem_cons_self).symm]

@[simp] theorem isObject_setAll (j : Json) (es : List (String × Json)) :
    (j.setAll es).isObject = j.isObject := by
  induction es generalizing j with
  | nil => rfl
  | cons e es ih => rw [setAll, List.foldl_cons, ← setAll, ih, isObject_set]

theorem setIndex_of_isObject {j : Json} (h : j.isObject = true) (k : String) (v : Json) :
    j.setIndex k v = j.set k v := by
  cases j <;> first | rfl | simp [isObject, asObject] at h

theorem isObject_setIndex {j : Json} (h : j.isObject = true) (k : String) (v : Json) :
    (j.setIndex k v).isObject = true := by
  rw [setIndex_of_isObject h, isObject_set, h]

theorem get_setIndex_of_ne (j : Json) {k k' : String} (h : k' ≠ k) (v : Json) :
    (j.setIndex k v).get k' = j.get k' := by
  cases j with
  | null => rw [setIndex, get_obj, List.lookup_cons, beq_false_of_ne h]; rfl
  | obj es => exact lookup_insertEntry_of_ne h v es
  | _ => rfl

theorem get_modify_of_ne (j : Json) {k k' : String} (h : k' ≠ k) (f : Json → Json) :
    (j.modify k f).get k' = j.get k' := get_setIndex_of_ne j h _

theorem isObject_modify {j : Json} (h : j.isObject = true) (k : String) (f : Json → Json) :
    (j.modify k f).isObject = true := isObject_setIndex h k _

theorem get_setIndex_self {j : Json} (h : j.isObject = true) (k : String) (v : Json) :
    (j.setIndex k v).get k = some v := by
  rw [setIndex_of_isObject h, get_set_self h]

theorem get_modify_self {j : Json} (h : j.isObject = true) (k : String) (f : Json → Json) :
    (j.modify k f).get k = some (f ((j.get k).getD null)) := get_setIndex_self h k _

theorem getArr_eq_some_iff {j : Json} {k : String} {xs : List Json} :
    j.getArr k = some xs ↔ j.get k = some (arr xs) := by
  rw [getArr, Option.bind_eq_some_iff]
  constructor
  · rintro ⟨v, hv, hxs⟩
    cases v <;> cases hxs
    exact hv
  · exact fun h => ⟨_, h, rfl⟩

/-- What `modify` does to the array under its key. -/
theorem getArr_modify {j : Json} (h : j.isObject = true) {k : String} {f : Json → Json}
    {xs ys : List Json} (hxs : j.getArr k = some xs) (hf : f (arr xs) = arr ys) :
    (j.modify k f).getArr k = some ys := by
  rw [getArr_eq_some_iff, get_modify_self h, getArr_eq_some_iff.mp hxs, Option.getD_some, hf]

theorem getArr_modify_push {j : Json} (h : j.isObject = true) {k : String} {xs : List Json}
    (hxs : j.getArr k = some xs) (x : Json) :
    (j.modify k (·.push x)).getArr k = some (xs ++ [x]) := getArr_modify h hxs rfl

/-- A new key is added to the keys. -/
theorem keys_insertEntry {k : String} {v : Json} {es : List (String × Json)}
    (h : k ∉ es.map Prod.fst) : ((insertEntry k v es).map Prod.fst).Perm (k :: es.map Prod.fst) := by
  induction es with
  | nil => exact .refl _
  | cons e es ih =>
    obtain ⟨l, w⟩ := e
    simp only [List.map_cons, List.mem_cons, not_or] at h
    rw [insertEntry, if_neg h.1]
    split
    · exact .refl _
    · exact ((ih h.2).cons l).trans (.swap k l _)

/-! ### Sorted keys -/

/-- The keys of the entries are strictly increasing. -/
def SortedKeys (es : List (String × Json)) : Prop := (es.map Prod.fst).Pairwise (· < ·)

theorem sortedKeys_nil : SortedKeys [] := List.Pairwise.nil

theorem sortedKeys_cons {e : String × Json} {es : List (String × Json)} :
    SortedKeys (e :: es) ↔ (∀ x ∈ es, e.1 < x.1) ∧ SortedKeys es := by
  simp [SortedKeys, List.pairwise_cons]

/-- In sorted entries, insertion replaces the entry of its key and nothing else. -/
theorem mem_insertEntry {k : String} {v : Json} {es : List (String × Json)} (h : SortedKeys es)
    {e : String × Json} : e ∈ insertEntry k v es ↔ e = (k, v) ∨ e.1 ≠ k ∧ e ∈ es := by
  induction es with
  | nil => simp [insertEntry]
  | cons x es ih =>
    obtain ⟨l, w⟩ := x
    obtain ⟨hl, hes⟩ := sortedKeys_cons.mp h
    have hrest : ∀ y ∈ es, y.1 ≠ l := fun y hy heq => Std.lt_irrefl (heq ▸ hl y hy)
    rw [insertEntry]
    by_cases hkl : k = l
    · subst hkl
      rw [if_pos rfl, List.mem_cons, List.mem_cons]
      constructor
      · rintro (rfl | he)
        · exact Or.inl rfl
        · exact Or.inr ⟨hrest e he, Or.inr he⟩
      · rintro (rfl | ⟨hne, rfl | he⟩)
        · exact Or.inl rfl
        · exact absurd rfl hne
        · exact Or.inr he
    · rw [if_neg hkl]
      by_cases hlt : k < l
      · have hne : ∀ y ∈ (l, w) :: es, y.1 ≠ k := by
          rintro y hy rfl
          rcases List.mem_cons.mp hy with rfl | hy
          · exact hkl rfl
          · exact Std.lt_irrefl (Std.lt_trans hlt (hl y hy))
        rw [if_pos hlt, List.mem_cons]
        exact or_congr_right ⟨fun he => ⟨hne e he, he⟩, fun he => he.2⟩
      · rw [if_neg hlt, List.mem_cons, ih hes, List.mem_cons]
        constructor
        · rintro (rfl | rfl | ⟨hne, he⟩)
          · exact Or.inr ⟨Ne.symm hkl, Or.inl rfl⟩
          · exact Or.inl rfl
          · exact Or.inr ⟨hne, Or.inr he⟩
        · rintro (rfl | ⟨hne, rfl | he⟩)
          · exact Or.inr (Or.inl rfl)
          · exact Or.inl rfl
          · exact Or.inr (Or.inr ⟨hne, he⟩)

theorem sortedKeys_insertEntry (k : String) (v : Json) {es : List (String × Json)}
    (h : SortedKeys es) : SortedKeys (insertEntry k v es) := by
  induction es with
  | nil => exact sortedKeys_cons.mpr ⟨fun x hx => absurd hx List.not_mem_nil, sortedKeys_nil⟩
  | cons x es ih =>
    obtain ⟨l, w⟩ := x
    obtain ⟨hl, hes⟩ := sortedKeys_cons.mp h
    rw [insertEntry]
    by_cases hkl : k = l
    · subst hkl
      rw [if_pos rfl]
      exact sortedKeys_cons.mpr ⟨hl, hes⟩
    · rw [if_neg hkl]
      by_cases hlt : k < l
      · rw [if_pos hlt]
        refine sortedKeys_cons.mpr ⟨fun y hy => ?_, h⟩
        rcases List.mem_cons.mp hy with rfl | hy
        · exact hlt
        · exact Std.lt_trans hlt (hl y hy)
      · rw [if_neg hlt]
        refine sortedKeys_cons.mpr ⟨fun y hy => ?_, ih hes⟩
        rcases (mem_insertEntry hes).mp hy with rfl | ⟨_, hy⟩
        · exact Std.lt_of_le_of_ne (Std.not_lt.mp hlt) (Ne.symm hkl)
        · exact hl y hy

/-- Insertion makes sorted entries longer exactly when the key is new. -/
theorem length_insertEntry (k : String) (v : Json) {es : List (String × Json)}
    (h : SortedKeys es) : (insertEntry k v es).length =
      if k ∈ es.map Prod.fst then es.length else es.length + 1 := by
  induction es with
  | nil => rfl
  | cons x es ih =>
    obtain ⟨l, w⟩ := x
    obtain ⟨hl, hes⟩ := sortedKeys_cons.mp h
    rw [insertEntry]
    by_cases hkl : k = l
    · simp [hkl]
    · by_cases hlt : k < l
      · have hnot : k ∉ es.map Prod.fst := by
          intro hk
          obtain ⟨y, hy, rfl⟩ := List.mem_map.mp hk
          exact Std.lt_irrefl (Std.lt_trans hlt (hl y hy))
        rw [if_neg hkl, if_pos hlt, List.map_cons, if_neg (by simp [hkl, hnot])]
        rfl
      · rw [if_neg hkl, if_neg hlt, List.length_cons, ih hes, List.map_cons]
        by_cases hk : k ∈ es.map Prod.fst
        · rw [if_pos hk, if_pos (List.mem_cons_of_mem l hk), List.length_cons]
        · rw [if_neg hk, if_neg (by simp [hkl, hk]), List.length_cons]

/-! ### Objects from a list of entries -/

/-- The entries that no later entry of the same key replaces. -/
def lastEntries {α : Type} : List (String × α) → List (String × α)
  | [] => []
  | e :: es => if e.1 ∈ es.map Prod.fst then lastEntries es else e :: lastEntries es

theorem lastEntries_nil {α : Type} : lastEntries ([] : List (String × α)) = [] := rfl

theorem lastEntries_cons {α : Type} (e : String × α) (es : List (String × α)) :
    lastEntries (e :: es) =
      if e.1 ∈ es.map Prod.fst then lastEntries es else e :: lastEntries es := rfl

theorem lastEntries_sublist {α : Type} (es : List (String × α)) : (lastEntries es).Sublist es := by
  induction es with
  | nil => exact List.Sublist.slnil
  | cons e es ih =>
    rw [lastEntries_cons]
    split
    · exact ih.cons e
    · exact ih.cons_cons e

theorem lastEntries_eq_self_iff {α : Type} {es : List (String × α)} :
    lastEntries es = es ↔ (es.map Prod.fst).Nodup := by
  induction es with
  | nil => simp [lastEntries_nil]
  | cons e es ih =>
    rw [lastEntries_cons, List.map_cons, List.nodup_cons]
    by_cases h : e.1 ∈ es.map Prod.fst
    · have hlen := (lastEntries_sublist es).length_le
      rw [if_pos h]
      refine iff_of_false (fun heq => ?_) (fun hnd => hnd.1 h)
      rw [heq, List.length_cons] at hlen
      omega
    · rw [if_neg h, List.cons.injEq, ih]
      exact ⟨fun hnd => ⟨h, hnd.2⟩, fun hnd => ⟨rfl, hnd.2⟩⟩

theorem lastEntries_eq_nil_iff {α : Type} {es : List (String × α)} :
    lastEntries es = [] ↔ es = [] := by
  induction es with
  | nil => simp [lastEntries_nil]
  | cons e es ih =>
    rw [lastEntries_cons]
    split
    · rename_i hmem
      rw [ih]
      refine iff_of_false (fun hnil => ?_) (List.cons_ne_nil e es)
      rw [hnil] at hmem
      exact List.not_mem_nil hmem
    · simp

/-- An entry whose key no other entry has stays. -/
theorem mem_lastEntries {α : Type} {es : List (String × α)} {e : String × α} (he : e ∈ es)
    (hkey : ∀ e' ∈ es, e'.1 = e.1 → e' = e) : e ∈ lastEntries es := by
  induction es with
  | nil => cases he
  | cons d es ih =>
    have hrest : e ∈ es → e ∈ lastEntries es := fun h =>
      ih h fun e' he' => hkey e' (List.mem_cons_of_mem d he')
    rw [lastEntries_cons]
    split
    · rename_i hmem
      rcases List.mem_cons.mp he with rfl | he
      · obtain ⟨e', he', hfst⟩ := List.mem_map.mp hmem
        exact hrest (hkey e' (List.mem_cons_of_mem e he') hfst ▸ he')
      · exact hrest he
    · rcases List.mem_cons.mp he with rfl | he
      · exact List.mem_cons_self
      · exact List.mem_cons_of_mem d (hrest he)

/-- The last entry stays. -/
theorem mem_lastEntries_concat {α : Type} (es : List (String × α)) (e : String × α) :
    e ∈ lastEntries (es ++ [e]) := by
  induction es with
  | nil => exact List.mem_singleton_self e
  | cons d es ih =>
    rw [List.cons_append, lastEntries_cons]
    split
    · exact ih
    · exact List.mem_cons_of_mem d ih

theorem lastEntries_map {α β : Type} (f : α → β) (es : List (String × α)) :
    lastEntries (es.map (Prod.map id f)) = (lastEntries es).map (Prod.map id f) := by
  induction es with
  | nil => rfl
  | cons e es ih =>
    have hkeys : (es.map (Prod.map id f)).map Prod.fst = es.map Prod.fst := by
      rw [List.map_map]
      rfl
    rw [List.map_cons, lastEntries_cons, lastEntries_cons, hkeys, ih]
    by_cases h : e.1 ∈ es.map Prod.fst
    · simp [h]
    · simp [h]

/-- Inserting entries one after another leaves the last of each key. -/
theorem mem_foldl_insertEntry {α : Type} (f : α → Json) (es : List (String × α))
    {acc : List (String × Json)} (h : SortedKeys acc) {e : String × Json} :
    e ∈ es.foldl (fun acc e => insertEntry e.1 (f e.2) acc) acc ↔
      (∃ x ∈ lastEntries es, e = (x.1, f x.2)) ∨ e ∈ acc ∧ e.1 ∉ es.map Prod.fst := by
  induction es generalizing acc with
  | nil => simp [lastEntries_nil]
  | cons x es ih =>
    rw [List.foldl_cons, ih (sortedKeys_insertEntry x.1 (f x.2) h), mem_insertEntry h, lastEntries_cons,
      List.map_cons, List.mem_cons, not_or]
    by_cases hx : x.1 ∈ es.map Prod.fst
    · rw [if_pos hx]
      refine or_congr_right ⟨?_, ?_⟩
      · rintro ⟨rfl | ⟨hne, he⟩, hnot⟩
        · exact absurd hx hnot
        · exact ⟨he, hne, hnot⟩
      · rintro ⟨he, hne, hnot⟩
        exact ⟨Or.inr ⟨hne, he⟩, hnot⟩
    · rw [if_neg hx]
      constructor
      · rintro (⟨y, hy, he⟩ | ⟨rfl | ⟨hne, he⟩, hnot⟩)
        · exact Or.inl ⟨y, List.mem_cons_of_mem x hy, he⟩
        · exact Or.inl ⟨x, List.mem_cons_self, rfl⟩
        · exact Or.inr ⟨he, hne, hnot⟩
      · rintro (⟨y, hy, he⟩ | ⟨he, hne, hnot⟩)
        · rcases List.mem_cons.mp hy with rfl | hy
          · exact Or.inr ⟨Or.inl he, by rw [he]; exact hx⟩
          · exact Or.inl ⟨y, hy, he⟩
        · exact Or.inr ⟨Or.inr ⟨hne, he⟩, hnot⟩

theorem sortedKeys_foldl_insertEntry {α : Type} (f : α → Json) (es : List (String × α))
    {acc : List (String × Json)} (h : SortedKeys acc) :
    SortedKeys (es.foldl (fun acc e => insertEntry e.1 (f e.2) acc) acc) := by
  induction es generalizing acc with
  | nil => exact h
  | cons x es ih => exact ih (sortedKeys_insertEntry x.1 (f x.2) h)

/-- Sorted entries are determined by which entries there are. -/
theorem SortedKeys.eq_of_mem_iff {es es' : List (String × Json)} (h : SortedKeys es)
    (h' : SortedKeys es') (hmem : ∀ e, e ∈ es ↔ e ∈ es') : es = es' := by
  have hpair : ∀ {es : List (String × Json)}, SortedKeys es → es.Pairwise fun a b => a.1 < b.1 :=
    fun h => List.pairwise_map.mp h
  have hnodup : ∀ {es : List (String × Json)}, SortedKeys es → es.Nodup := fun h =>
    (hpair h).imp fun hlt heq => by
      rw [heq] at hlt
      exact String.lt_irrefl _ hlt
  have hperm := (List.perm_ext_iff_of_nodup (hnodup h) (hnodup h')).mpr hmem
  refine hperm.eq_of_pairwise (fun a b _ _ hab hba => ?_) (hpair h) (hpair h')
  exact absurd (String.lt_trans hab hba) (String.lt_irrefl _)

/-- Entries with keys of their own may be inserted in any order. -/
theorem foldl_insertEntry_perm {α : Type} (f : α → Json) {es es' : List (String × α)}
    (hperm : es.Perm es') (hkeys : (es.map Prod.fst).Nodup) :
    es.foldl (fun acc e => insertEntry e.1 (f e.2) acc) [] =
      es'.foldl (fun acc e => insertEntry e.1 (f e.2) acc) [] := by
  refine SortedKeys.eq_of_mem_iff (sortedKeys_foldl_insertEntry f es sortedKeys_nil)
    (sortedKeys_foldl_insertEntry f es' sortedKeys_nil) fun e => ?_
  rw [mem_foldl_insertEntry f es sortedKeys_nil, mem_foldl_insertEntry f es' sortedKeys_nil,
    lastEntries_eq_self_iff.mpr hkeys,
    lastEntries_eq_self_iff.mpr ((hperm.map Prod.fst).nodup_iff.mp hkeys)]
  simp only [hperm.mem_iff, List.not_mem_nil, false_and, or_false]

/-! ### Text -/

def hexDigit (n : Nat) : Char := if n < 10 then Char.ofNat (48 + n) else Char.ofNat (87 + n)

/-- One character of a string literal. -/
def escapeChar (c : Char) : List Char :=
  if c = '"' then ['\\', '"']
  else if c = '\\' then ['\\', '\\']
  else if c.toNat = 8 then ['\\', 'b']
  else if c.toNat = 9 then ['\\', 't']
  else if c.toNat = 10 then ['\\', 'n']
  else if c.toNat = 12 then ['\\', 'f']
  else if c.toNat = 13 then ['\\', 'r']
  else if c.toNat < 32 then ['\\', 'u', '0', '0', hexDigit (c.toNat / 16), hexDigit (c.toNat % 16)]
  else [c]

def renderStr (s : String) : String :=
  "\"" ++ String.ofList (s.toList.flatMap escapeChar) ++ "\""

mutual
/-- The compact text of a value. -/
def render : Json → String
  | null => "null"
  | bool b => if b then "true" else "false"
  | num n => toString n
  | float t => t
  | str s => renderStr s
  | arr xs => "[" ++ ",".intercalate (renderItems xs) ++ "]"
  | obj es => "\x7b" ++ ",".intercalate (renderEntries es) ++ "\x7d"

def renderItems : List Json → List String
  | [] => []
  | x :: xs => render x :: renderItems xs

def renderEntries : List (String × Json) → List String
  | [] => []
  | (k, v) :: es => (renderStr k ++ ":" ++ render v) :: renderEntries es
end

example : (mkObj [("b", num 1), ("a", arr [str "x", null])]).render =
    "\x7b\"a\":[\"x\",null],\"b\":1\x7d" := by decide

end Json

end ProxyPanel

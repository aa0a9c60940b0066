import Mathlib.Algebra.BigOperators.Group.List.Basic
import Mathlib.Data.List.Nodup
import Mathlib.Tactic

/-
  Dictionaries that keep the order of their insertions.

  A dictionary is a list of entries with distinct keys.  Its
  one writing operation applies a function to the value of a
  key, starting from a default where the key is absent, as a
  `defaultdict` does.

  Main declarations:
    * `Dict`, `Dict.get`, `Dict.update`
    * `Dict.get_update_self`, `Dict.get_update_of_ne`
    * `Dict.mem_keys_update`
    * `Dict.group`, `Dict.get_group`
    * `Dict.set`, `Dict.setAll`, `Dict.setAll_setAll`
    * `Dict.collect`, `Dict.find?_collect`
    * `Dict.values`, `Dict.sum_foldl_update`
    * `Dict.sum_foldl_succ`, `Dict.get_foldl_succ`
-/

------------------------------------------------------------
-- Dictionaries
------------------------------------------------------------

/- Entries in insertion order, with distinct keys. -/
structure Dict (κ ν : Type) where
  entries : List (κ × ν)
  distinct : (entries.map Prod.fst).Nodup

namespace Dict

variable {κ ν : Type} [DecidableEq κ]

/- The dictionary without entries. -/
def empty : Dict κ ν where
  entries := []
  distinct := List.nodup_nil

/- The keys in insertion order. -/
def keys (d : Dict κ ν) : List κ :=
  d.entries.map Prod.fst

omit [DecidableEq κ] in
/- Keys are distinct. -/
theorem nodup_keys (d : Dict κ ν) : d.keys.Nodup :=
  d.distinct

/- The value of a key, if the key is present. -/
def find? (d : Dict κ ν) (k : κ) : Option ν :=
  (d.entries.find? (fun e => e.1 = k)).map Prod.snd

/- The value of a key, or a default. -/
def get (d : Dict κ ν) (default : ν) (k : κ) : ν :=
  (d.find? k).getD default

/- Apply a function to the value of one entry. -/
def touch (k : κ) (f : ν → ν) (e : κ × ν) : κ × ν :=
  if e.1 = k then (e.1, f e.2) else e

/- Touching an entry keeps its key. -/
theorem fst_touch (k : κ) (f : ν → ν) (e : κ × ν) :
    (touch k f e).1 = e.1 := by
  unfold touch
  split <;> rfl

/-
  Apply a function to the value of a key, which is entered
  with the default value first if it is absent.
-/
def update
    (d : Dict κ ν)
    (default : ν)
    (k : κ)
    (f : ν → ν) : Dict κ ν :=
  if hKey : k ∈ d.keys then
    { entries := d.entries.map (touch k f)
      distinct := by
        rw [List.map_map]
        have hSame : Prod.fst ∘ touch k f = Prod.fst :=
          funext (fst_touch k f)
        rw [hSame]
        exact d.distinct }
  else
    { entries := d.entries ++ [(k, f default)]
      distinct := by
        rw [List.map_append]
        apply List.Nodup.append d.distinct
          (List.nodup_singleton _)
        intro other hMem hLast
        have hSame : other = k := by
          simpa using hLast
        rw [hSame] at hMem
        exact hKey hMem }

------------------------------------------------------------
-- Looking Up
------------------------------------------------------------

variable {d : Dict κ ν} {default : ν} {k k' : κ} {f : ν → ν}

/- A key outside the dictionary has no value. -/
theorem find?_eq_none (hKey : k ∉ d.keys) :
    d.find? k = none := by
  unfold find?
  rw [Option.map_eq_none_iff, List.find?_eq_none]
  intro e hMem hEq
  exact hKey
    (List.mem_map.mpr ⟨e, hMem, of_decide_eq_true hEq⟩)

/- The entry of a key gives its value. -/
theorem find?_eq_some_iff {v : ν} :
    d.find? k = some v ↔ (k, v) ∈ d.entries := by
  unfold find?
  constructor
  · intro hFind
    rcases Option.map_eq_some_iff.mp hFind with ⟨e, hE, hV⟩
    have hKey : e.1 = k := by
      simpa using List.find?_some hE
    have hMem := List.mem_of_find?_eq_some hE
    rcases e with ⟨key, value⟩
    simp only at hKey hV
    rw [← hKey, ← hV]
    exact hMem
  · intro hMem
    cases hFind : d.entries.find? (fun e => e.1 = k) with
    | none =>
        rw [List.find?_eq_none] at hFind
        exact absurd (decide_eq_true rfl) (hFind _ hMem)
    | some e =>
        have hKey : e.1 = k := by
          simpa using List.find?_some hFind
        have hIn := List.mem_of_find?_eq_some hFind
        have hSame :=
          List.inj_on_of_nodup_map d.distinct hIn hMem hKey
        rw [hSame]
        rfl

/- An empty dictionary gives the default everywhere. -/
@[simp] theorem get_empty (default : ν) (k : κ) :
    (empty : Dict κ ν).get default k = default := rfl

/- The updated key has the updated value. -/
theorem find?_update_self :
    (d.update default k f).find? k =
      some (f (d.get default k)) := by
  unfold update
  by_cases hKey : k ∈ d.keys
  · rw [dif_pos hKey, find?_eq_some_iff]
    rcases List.mem_map.mp hKey with ⟨⟨key, v⟩, hMem, hFst⟩
    simp only at hFst
    subst hFst
    have hGet : d.get default key = v := by
      unfold get
      rw [find?_eq_some_iff.mpr hMem]
      rfl
    rw [hGet]
    exact List.mem_map.mpr
      ⟨(key, v), hMem, by simp [touch]⟩
  · rw [dif_neg hKey, find?_eq_some_iff]
    unfold get
    rw [find?_eq_none hKey]
    exact List.mem_append_right _ (List.mem_singleton_self _)

/- Every other key keeps its value. -/
theorem find?_update_of_ne (hNe : k' ≠ k) :
    (d.update default k f).find? k' = d.find? k' := by
  apply Option.ext
  intro v
  rw [find?_eq_some_iff, find?_eq_some_iff]
  unfold update
  by_cases hKey : k ∈ d.keys
  · rw [dif_pos hKey]
    constructor
    · intro hMem
      rcases List.mem_map.mp hMem with ⟨e, hE, hTouch⟩
      unfold touch at hTouch
      split at hTouch
      · rename_i hFst
        exfalso
        apply hNe
        rw [← hFst]
        exact (Prod.mk.inj hTouch).1.symm
      · rw [← hTouch]
        exact hE
    · intro hMem
      exact List.mem_map.mpr
        ⟨(k', v), hMem, by simp [touch, hNe]⟩
  · rw [dif_neg hKey]
    constructor
    · intro hMem
      rcases List.mem_append.mp hMem with hOld | hNew
      · exact hOld
      · have hPair := List.mem_singleton.mp hNew
        exact absurd (Prod.mk.inj hPair).1 hNe
    · exact List.mem_append_left _

/- Looking up the updated key. -/
theorem get_update_self :
    (d.update default k f).get default k =
      f (d.get default k) := by
  conv_lhs => unfold get
  rw [find?_update_self]
  rfl

/- Looking up another key. -/
theorem get_update_of_ne (hNe : k' ≠ k) :
    (d.update default k f).get default k' =
      d.get default k' := by
  unfold get
  rw [find?_update_of_ne hNe]

/- The keys are those with a value. -/
theorem mem_keys_iff :
    k ∈ d.keys ↔ ∃ v, d.find? k = some v := by
  unfold keys
  rw [List.mem_map]
  constructor
  · rintro ⟨⟨key, v⟩, hMem, hKey⟩
    simp only at hKey
    subst hKey
    exact ⟨v, find?_eq_some_iff.mpr hMem⟩
  · rintro ⟨v, hFind⟩
    exact ⟨(k, v), find?_eq_some_iff.mp hFind, rfl⟩

/- An update adds at most its own key. -/
theorem mem_keys_update :
    k' ∈ (d.update default k f).keys ↔
      k' = k ∨ k' ∈ d.keys := by
  rw [mem_keys_iff, mem_keys_iff]
  by_cases hEq : k' = k
  · subst hEq
    exact ⟨fun _ => Or.inl rfl,
      fun _ => ⟨_, find?_update_self⟩⟩
  · rw [find?_update_of_ne hEq]
    constructor
    · exact Or.inr
    · rintro (hSame | hOld)
      · exact absurd hSame hEq
      · exact hOld

/- A run of updates adds at most the keys it updates. -/
theorem mem_keys_foldl_update
    {α : Type}
    (key : α → κ)
    (default : κ → ν)
    (step : α → ν → ν)
    (l : List α)
    (d : Dict κ ν)
    (k : κ) :
    k ∈ (l.foldl
        (fun d a => d.update (default (key a)) (key a) (step a))
        d).keys ↔
      (∃ a ∈ l, key a = k) ∨ k ∈ d.keys := by
  induction l generalizing d with
  | nil => simp
  | cons a rest ih =>
      rw [List.foldl_cons, ih, mem_keys_update, List.exists_mem_cons_iff]
      constructor
      · rintro (hRest | hOwn | hOld)
        · exact Or.inl (Or.inr hRest)
        · exact Or.inl (Or.inl hOwn.symm)
        · exact Or.inr hOld
      · rintro ((hOwn | hRest) | hOld)
        · exact Or.inr (Or.inl hOwn.symm)
        · exact Or.inl hRest
        · exact Or.inr (Or.inr hOld)

------------------------------------------------------------
-- Grouping
------------------------------------------------------------

/- Collect the values of a list under their keys. -/
def group
    {α : Type}
    (key : α → κ)
    (value : α → ν)
    (l : List α) : Dict κ (List ν) :=
  l.foldl
    (fun d a => d.update [] (key a) (· ++ [value a])) empty

/- Grouping appends to the groups that are there. -/
theorem get_foldl_update
    {α : Type}
    (key : α → κ)
    (value : α → ν)
    (l : List α)
    (d : Dict κ (List ν))
    (k : κ) :
    (l.foldl
        (fun d a =>
          d.update [] (key a) (· ++ [value a])) d).get [] k =
      d.get [] k ++ (l.filter (fun a => key a = k)).map value := by
  induction l generalizing d with
  | nil =>
      simp
  | cons a rest ih =>
      rw [List.foldl_cons, ih]
      by_cases hKey : key a = k
      · subst hKey
        rw [get_update_self]
        simp
      · rw [get_update_of_ne (Ne.symm hKey)]
        simp [hKey]

/- A group holds the values of its key in order. -/
theorem get_group
    {α : Type}
    (key : α → κ)
    (value : α → ν)
    (l : List α)
    (k : κ) :
    (group key value l).get [] k =
      (l.filter (fun a => key a = k)).map value := by
  unfold group
  rw [get_foldl_update, get_empty, List.nil_append]

/-
  A key after a run of updates: the updates of the key alone
  have been applied, from its old value or the default.
-/
theorem find?_foldl_update
    {α : Type}
    (key : α → κ)
    (default : κ → ν)
    (step : α → ν → ν)
    (l : List α)
    (d : Dict κ ν)
    (k : κ) :
    (l.foldl
        (fun d a => d.update (default (key a)) (key a) (step a))
        d).find? k =
      match l.filter (fun a => key a = k) with
      | [] => d.find? k
      | own =>
          some
            (own.foldl (fun v a => step a v)
              (d.get (default k) k)) := by
  induction l generalizing d with
  | nil =>
      simp
  | cons a rest ih =>
      rw [List.foldl_cons, ih]
      by_cases hKey : key a = k
      · subst hKey
        rw [get_update_self, find?_update_self,
          List.filter_cons_of_pos (by simp)]
        cases rest.filter (fun b => key b = key a) <;> rfl
      · have hNe : k ≠ key a := Ne.symm hKey
        rw [find?_update_of_ne hNe, List.filter_cons_of_neg
          (by simpa using hKey)]
        cases rest.filter (fun b => key b = k) with
        | nil => rfl
        | cons b more =>
            have hGet :
                (d.update (default (key a)) (key a)
                  (step a)).get (default k) k =
                  d.get (default k) k := by
              unfold get
              rw [find?_update_of_ne hNe]
            simp only [hGet]

/- Enter every entry of a dictionary under a changed key. -/
def enterAll
    {μ : Type}
    [DecidableEq μ]
    (f : κ → μ)
    (new : Dict κ ν)
    (d : Dict μ ν) : Dict μ ν :=
  new.entries.foldl
    (fun d e => d.update e.2 (f e.1) (fun _ => e.2)) d

omit [DecidableEq κ] in
/- Entering leaves keys of another form alone. -/
theorem find?_enterAll_of_ne
    {μ : Type}
    [DecidableEq μ]
    {f : κ → μ}
    {m : μ}
    (hOther : ∀ k, f k ≠ m)
    (new : Dict κ ν)
    (d : Dict μ ν) :
    (new.enterAll f d).find? m = d.find? m := by
  unfold enterAll
  induction new.entries generalizing d with
  | nil => rfl
  | cons e rest ih =>
      rw [List.foldl_cons, ih,
        find?_update_of_ne (Ne.symm (hOther e.1))]

/- An entered value takes the place of an old one. -/
theorem find?_enterAll
    {μ : Type}
    [DecidableEq μ]
    {f : κ → μ}
    (hInjective : Function.Injective f)
    (new : Dict κ ν)
    (d : Dict μ ν)
    (k : κ) :
    (new.enterAll f d).find? (f k) =
      (new.find? k).or (d.find? (f k)) := by
  rcases new with ⟨entries, hDistinct⟩
  change
    (entries.foldl
        (fun d e => d.update e.2 (f e.1) (fun _ => e.2))
        d).find? (f k) =
      ((entries.find? (fun e => e.1 = k)).map Prod.snd).or
        (d.find? (f k))
  induction entries generalizing d with
  | nil => rfl
  | cons e rest ih =>
      rw [List.map_cons, List.nodup_cons] at hDistinct
      rw [List.foldl_cons, ih _ hDistinct.2]
      by_cases hKey : e.1 = k
      · have hAbsent : rest.find? (fun e => e.1 = k) = none := by
          rw [List.find?_eq_none]
          intro other hMem hSame
          have hOther : other.1 = e.1 := by
            simpa [hKey] using hSame
          apply hDistinct.1
          rw [← hOther]
          exact List.mem_map_of_mem hMem
        have hUpdated :
            (d.update e.2 (f e.1) (fun _ => e.2)).find? (f e.1) =
              some e.2 :=
          find?_update_self
        rw [hKey] at hUpdated
        simp [hAbsent, hKey, hUpdated]
      · have hNe : f k ≠ f e.1 := by
          intro hSame
          exact hKey (hInjective hSame).symm
        rw [find?_update_of_ne hNe]
        simp [hKey]

------------------------------------------------------------
-- Assigning
------------------------------------------------------------

/- Append the keys of a list that are missing in another. -/
def appendMissing (order keys : List κ) : List κ :=
  keys.foldl
    (fun order key =>
      if order.contains key then order else order ++ [key])
    order

/- Nothing is lost, and nothing else is appended. -/
theorem mem_appendMissing {order keys : List κ} :
    k ∈ appendMissing order keys ↔ k ∈ order ∨ k ∈ keys := by
  unfold appendMissing
  induction keys generalizing order with
  | nil => simp
  | cons key rest ih =>
      rw [List.foldl_cons, ih, List.mem_cons]
      by_cases hKey : key ∈ order
      · have hOld : k = key → k ∈ order := by
          intro hSame
          rw [hSame]
          exact hKey
        rw [if_pos (by simpa using hKey)]
        tauto
      · rw [if_neg (by simpa using hKey), List.mem_append,
          List.mem_singleton, or_assoc]

/- Distinct keys are appended in their order. -/
theorem appendMissing_eq
    {order keys : List κ}
    (hDistinct : keys.Nodup) :
    appendMissing order keys =
      order ++ keys.filter (· ∉ order) := by
  induction keys generalizing order with
  | nil => simp [appendMissing]
  | cons key rest ih =>
      rw [List.nodup_cons] at hDistinct
      have hStep :
          appendMissing order (key :: rest) =
            appendMissing
              (if order.contains key then order
                else order ++ [key]) rest := rfl
      rw [hStep, ih hDistinct.2]
      by_cases hKey : key ∈ order
      · simp [hKey]
      · have hRest :
            rest.filter (· ∉ order ++ [key]) =
              rest.filter (· ∉ order) := by
          apply List.filter_congr
          intro other hOther
          have hNe : other ≠ key := by
            intro hSame
            rw [hSame] at hOther
            exact hDistinct.1 hOther
          simp [hNe]
        simp only [List.contains_eq_mem, hKey, decide_false,
          Bool.false_eq_true, if_false, hRest]
        simp [hKey]

/- Assign a value to a key. -/
def set (d : Dict κ ν) (k : κ) (v : ν) : Dict κ ν :=
  d.update v k (fun _ => v)

/- The assigned key has the assigned value. -/
theorem find?_set_self {v : ν} :
    (d.set k v).find? k = some v :=
  find?_update_self

/- Every other key keeps its value. -/
theorem find?_set_of_ne {v : ν} (hNe : k' ≠ k) :
    (d.set k v).find? k' = d.find? k' :=
  find?_update_of_ne hNe

/- An absent key is entered at the end. -/
theorem entries_set_of_notMem {v : ν} (hKey : k ∉ d.keys) :
    (d.set k v).entries = d.entries ++ [(k, v)] := by
  unfold set update
  rw [dif_neg hKey]

/- A present key keeps its place. -/
theorem keys_set_of_mem {v : ν} (hKey : k ∈ d.keys) :
    (d.set k v).keys = d.keys := by
  unfold set update
  rw [dif_pos hKey]
  change (d.entries.map (touch k (fun _ => v))).map Prod.fst =
    d.entries.map Prod.fst
  rw [List.map_map]
  exact List.map_congr_left (fun e _ => fst_touch k _ e)

/- The keys after an assignment. -/
theorem keys_set {v : ν} :
    (d.set k v).keys =
      if k ∈ d.keys then d.keys else d.keys ++ [k] := by
  split
  case isTrue hKey => exact keys_set_of_mem hKey
  case isFalse hKey =>
      unfold keys
      rw [entries_set_of_notMem hKey]
      exact List.map_append

/- An entry after an assignment is the new one or was there. -/
theorem mem_entries_set
    {v : ν}
    {e : κ × ν}
    (hMem : e ∈ (d.set k v).entries) :
    e = (k, v) ∨ e ∈ d.entries := by
  rcases e with ⟨key, value⟩
  have hFind := find?_eq_some_iff.mpr hMem
  by_cases hKey : key = k
  · subst hKey
    rw [find?_set_self] at hFind
    exact Or.inl (by rw [Option.some.inj hFind])
  · rw [find?_set_of_ne hKey] at hFind
    exact Or.inr (find?_eq_some_iff.mp hFind)

/- Dictionaries with the same keys and values are equal. -/
theorem ext_find?
    {d d' : Dict κ ν}
    (hKeys : d.keys = d'.keys)
    (hFind : ∀ k, d.find? k = d'.find? k) :
    d = d' := by
  have hEntries : d.entries = d'.entries := by
    apply List.ext_getElem
    · simpa [keys] using congrArg List.length hKeys
    · intro i hLeft hRight
      have hFst : d.entries[i].1 = d'.entries[i].1 := by
        have hAt := congrArg (fun l => l[i]?) hKeys
        simpa [keys, hLeft, hRight] using hAt
      have hOwn : d.find? d.entries[i].1 = some d.entries[i].2 :=
        find?_eq_some_iff.mpr (List.getElem_mem hLeft)
      have hOther :
          d'.find? d'.entries[i].1 = some d'.entries[i].2 :=
        find?_eq_some_iff.mpr (List.getElem_mem hRight)
      rw [hFind, hFst, hOther] at hOwn
      exact Prod.ext hFst (Option.some.inj hOwn).symm
  cases d
  cases d'
  congr

/- Assign every entry of another dictionary, in its order. -/
def setAll (d new : Dict κ ν) : Dict κ ν :=
  new.enterAll id d

/- An assigned value takes the place of an old one. -/
theorem find?_setAll (d new : Dict κ ν) (k : κ) :
    (d.setAll new).find? k = (new.find? k).or (d.find? k) :=
  find?_enterAll Function.injective_id new d k

/- Keys that are not assigned keep their values. -/
theorem find?_setAll_of_notMem
    {d new : Dict κ ν}
    (hKey : k ∉ new.keys) :
    (d.setAll new).find? k = d.find? k := by
  rw [find?_setAll, find?_eq_none hKey]
  rfl

/- An assigned key has its assigned value. -/
theorem get_setAll
    {d new : Dict κ ν}
    {v : ν}
    (hNew : new.find? k = some v) :
    (d.setAll new).get default k = v := by
  unfold get
  rw [find?_setAll, hNew]
  rfl

/- The keys after assigning one entry after the other. -/
theorem keys_foldl_set (l : List (κ × ν)) (d : Dict κ ν) :
    (l.foldl (fun d e => d.set e.1 e.2) d).keys =
      appendMissing d.keys (l.map Prod.fst) := by
  induction l generalizing d with
  | nil => rfl
  | cons e rest ih =>
      rw [List.foldl_cons, ih, keys_set]
      simp [appendMissing]

/- Of the values assigned to a key, the last one stays. -/
theorem find?_foldl_set
    (l : List (κ × ν))
    (d : Dict κ ν)
    (k : κ) :
    (l.foldl (fun d e => d.set e.1 e.2) d).find? k =
      ((l.reverse.find? (fun e => e.1 = k)).map Prod.snd).or
        (d.find? k) := by
  induction l generalizing d with
  | nil => rfl
  | cons e rest ih =>
      rw [List.foldl_cons, ih, List.reverse_cons,
        List.find?_append]
      cases rest.reverse.find? (fun e => e.1 = k) with
      | some last => rfl
      | none =>
          by_cases hKey : e.1 = k
          · subst hKey
            simp [find?_set_self]
          · simp [find?_set_of_ne (Ne.symm hKey), hKey]

/- New keys are entered after the old ones. -/
theorem keys_setAll (d new : Dict κ ν) :
    (d.setAll new).keys =
      d.keys ++ new.keys.filter (· ∉ d.keys) :=
  (keys_foldl_set new.entries d).trans
    (appendMissing_eq new.nodup_keys)

/- What all entries satisfy, before and among the assigned. -/
theorem forall_foldl_set
    {P : κ × ν → Prop}
    {l : List (κ × ν)}
    (hNew : ∀ e ∈ l, P e)
    {d : Dict κ ν}
    (hOld : ∀ e ∈ d.entries, P e) :
    ∀ e ∈ (l.foldl (fun d e => d.set e.1 e.2) d).entries,
      P e := by
  induction l generalizing d with
  | nil => exact hOld
  | cons own rest ih =>
      apply ih (fun e hMem => hNew e (List.mem_cons_of_mem _ hMem))
      intro e hMem
      rcases mem_entries_set hMem with hOwn | hBefore
      · rw [hOwn]
        exact hNew own List.mem_cons_self
      · exact hOld e hBefore

/- The same for the entries of a dictionary. -/
theorem forall_entries_setAll
    {P : κ × ν → Prop}
    {d new : Dict κ ν}
    (hOld : ∀ e ∈ d.entries, P e)
    (hNew : ∀ e ∈ new.entries, P e) :
    ∀ e ∈ (d.setAll new).entries, P e :=
  forall_foldl_set hNew hOld

/- Assigning the same entries again changes nothing. -/
theorem setAll_setAll (d new : Dict κ ν) :
    (d.setAll new).setAll new = d.setAll new := by
  apply ext_find?
  · have hNone :
        new.keys.filter (· ∉ (d.setAll new).keys) = [] := by
      rw [List.filter_eq_nil_iff]
      intro k hMem
      rcases mem_keys_iff.mp hMem with ⟨v, hFind⟩
      have hThere : k ∈ (d.setAll new).keys := by
        rw [mem_keys_iff, find?_setAll, hFind]
        exact ⟨v, rfl⟩
      simpa using hThere
    rw [keys_setAll (d.setAll new), hNone, List.append_nil]
  · intro k
    rw [find?_setAll, find?_setAll]
    cases new.find? k <;> rfl

/- The keys outside a list, in their order. -/
def others (hidden keys : List κ) : List κ :=
  keys.filter (· ∉ hidden)

/- Keys that are not assigned keep their order. -/
theorem others_keys_setAll (d new : Dict κ ν) :
    others new.keys (d.setAll new).keys =
      others new.keys d.keys := by
  have hNone :
      (new.keys.filter (· ∉ d.keys)).filter (· ∉ new.keys) =
        [] := by
    rw [List.filter_eq_nil_iff]
    intro k hMem
    simpa using (List.mem_filter.mp hMem).1
  unfold others
  rw [keys_setAll, List.filter_append, hNone, List.append_nil]

/- Assigning to no entries gives the entries themselves. -/
theorem setAll_empty (new : Dict κ ν) :
    (empty : Dict κ ν).setAll new = new := by
  apply ext_find?
  · rw [keys_setAll]
    simp [keys, empty]
  · intro k
    rw [find?_setAll]
    cases new.find? k <;> rfl

/- Assign to the keys of a list the values they have. -/
def collect
    (keys : List κ)
    (value : κ → Option ν) : Dict κ ν :=
  keys.foldl
    (fun d k =>
      match value k with
      | some v => d.set k v
      | none => d)
    empty

/- The keys of the list have their values. -/
theorem find?_foldl_collect
    (value : κ → Option ν)
    (keys : List κ)
    (d : Dict κ ν)
    (k : κ) :
    (keys.foldl
        (fun d k =>
          match value k with
          | some v => d.set k v
          | none => d) d).find? k =
      if k ∈ keys then (value k).or (d.find? k)
        else d.find? k := by
  induction keys generalizing d with
  | nil => simp
  | cons own rest ih =>
      rw [List.foldl_cons, ih]
      by_cases hOwn : k = own
      · subst hOwn
        cases hValue : value k with
        | none => simp
        | some v => simp [find?_set_self]
      · cases hValue : value own with
        | none => simp [hOwn]
        | some v => simp [hOwn, find?_set_of_ne hOwn]

/- A key has a value if it is listed and has one. -/
theorem find?_collect
    (keys : List κ)
    (value : κ → Option ν)
    (k : κ) :
    (collect keys value).find? k =
      if k ∈ keys then value k else none := by
  unfold collect
  rw [find?_foldl_collect]
  cases value k <;> rfl

------------------------------------------------------------
-- Values
------------------------------------------------------------

/- The values in insertion order. -/
def values (d : Dict κ ν) : List ν :=
  d.entries.map Prod.snd

omit [DecidableEq κ] in
/- A value stands under some key. -/
theorem mem_values_iff {v : ν} :
    v ∈ d.values ↔ ∃ k, (k, v) ∈ d.entries := by
  unfold values
  rw [List.mem_map]
  constructor
  · rintro ⟨⟨k, own⟩, hMem, rfl⟩
    exact ⟨k, hMem⟩
  · rintro ⟨k, hMem⟩
    exact ⟨(k, v), hMem, rfl⟩

section Weights

variable {M : Type} [AddCommMonoid M]
variable {weight : ν → M} {cost : M}

/- Touching the one entry of a key adds its cost. -/
theorem sum_map_touch
    (hStep : ∀ v, weight (f v) = weight v + cost)
    {l : List (κ × ν)}
    (hDistinct : (l.map Prod.fst).Nodup)
    (hKey : k ∈ l.map Prod.fst) :
    ((l.map (touch k f)).map (fun e => weight e.2)).sum =
      (l.map (fun e => weight e.2)).sum + cost := by
  induction l with
  | nil => exact absurd hKey List.not_mem_nil
  | cons e rest ih =>
      rw [List.map_cons, List.nodup_cons] at hDistinct
      rw [List.map_cons, List.map_cons, List.sum_cons,
        List.map_cons, List.sum_cons]
      by_cases hOwn : e.1 = k
      · have hRest : rest.map (touch k f) = rest := by
          rw [List.map_congr_left (g := id), List.map_id]
          intro other hMem
          apply if_neg
          intro hSame
          apply hDistinct.1
          rw [hOwn, ← hSame]
          exact List.mem_map_of_mem hMem
        have hTouch : (touch k f e).2 = f e.2 := by
          unfold touch
          rw [if_pos hOwn]
        rw [hRest, hTouch, hStep]
        exact add_right_comm _ _ _
      · have hThere : k ∈ rest.map Prod.fst := by
          rcases List.mem_cons.mp hKey with hSame | hRest
          · exact absurd hSame.symm hOwn
          · exact hRest
        have hTouch : touch k f e = e := if_neg hOwn
        rw [ih hDistinct.2 hThere, hTouch]
        exact (add_assoc _ _ _).symm

/- An update adds its cost to the weight of the values. -/
theorem sum_update
    (hDefault : weight default = 0)
    (hStep : ∀ v, weight (f v) = weight v + cost) :
    ((d.update default k f).values.map weight).sum =
      (d.values.map weight).sum + cost := by
  unfold values update
  rw [List.map_map, List.map_map]
  by_cases hKey : k ∈ d.keys
  · rw [dif_pos hKey]
    exact sum_map_touch hStep d.distinct hKey
  · rw [dif_neg hKey]
    simp [hStep, hDefault]

/- A run of updates adds all their costs. -/
theorem sum_foldl_update
    {α : Type}
    {key : α → κ}
    {default : κ → ν}
    {step : α → ν → ν}
    {cost : α → M}
    (hDefault : ∀ k, weight (default k) = 0)
    (hStep : ∀ a v, weight (step a v) = weight v + cost a)
    (l : List α)
    (d : Dict κ ν) :
    ((l.foldl
        (fun d a => d.update (default (key a)) (key a) (step a))
        d).values.map weight).sum =
      (d.values.map weight).sum + (l.map cost).sum := by
  induction l generalizing d with
  | nil => simp
  | cons a rest ih =>
      rw [List.foldl_cons, ih,
        sum_update (hDefault _) (hStep a), List.map_cons,
        List.sum_cons]
      exact add_assoc _ _ _

end Weights

/- Counting by key counts every entry once. -/
theorem sum_foldl_succ
    {α : Type}
    (key : α → κ)
    (l : List α)
    (d : Dict κ Nat) :
    (l.foldl (fun d a => d.update 0 (key a) (· + 1))
        d).values.sum =
      d.values.sum + l.length := by
  induction l generalizing d with
  | nil => rfl
  | cons a rest ih =>
      have hOne :
          ((d.update 0 (key a) (· + 1)).values.map id).sum =
            (d.values.map id).sum + 1 :=
        sum_update rfl (fun _ => rfl)
      rw [List.map_id, List.map_id] at hOne
      rw [List.foldl_cons, ih, hOne, List.length_cons]
      omega

/- Counting by key counts the entries of each key. -/
theorem get_foldl_succ
    {α : Type}
    (key : α → κ)
    (l : List α)
    (d : Dict κ Nat)
    (k : κ) :
    (l.foldl (fun d a => d.update 0 (key a) (· + 1)) d).get 0
        k =
      d.get 0 k + l.countP (fun a => key a = k) := by
  induction l generalizing d with
  | nil => simp
  | cons a rest ih =>
      rw [List.foldl_cons, ih]
      by_cases hKey : key a = k
      · subst hKey
        rw [get_update_self, List.countP_cons_of_pos (by simp)]
        omega
      · rw [get_update_of_ne (Ne.symm hKey),
          List.countP_cons_of_neg (by simpa using hKey)]

/- Apply a function to every value. -/
def mapValues
    {μ : Type}
    (f : ν → μ)
    (d : Dict κ ν) : Dict κ μ where
  entries := d.entries.map (fun e => (e.1, f e.2))
  distinct := by
    rw [List.map_map]
    exact d.distinct

/- Looking up after applying a function to every value. -/
theorem get_mapValues
    {μ : Type}
    (f : ν → μ)
    (d : Dict κ ν)
    (default : ν)
    (k : κ) :
    (d.mapValues f).get (f default) k = f (d.get default k) := by
  have hFind : (d.mapValues f).find? k = (d.find? k).map f := by
    unfold find? mapValues
    rw [List.find?_map, Option.map_map, Option.map_map]
    rfl
  unfold get
  rw [hFind]
  cases d.find? k with
  | none =>
      rfl
  | some v =>
      rfl

end Dict

import Mathlib.Data.List.Basic
import Reconcile.Remote.Basic
import Reconcile.Sorted

namespace Reconcile

namespace Sorted

/-- A strict order that tells any two elements apart. -/
structure IsOrder (lt : α → α → Bool) : Prop where
  asymm : ∀ {a b}, lt a b = true → lt b a = false
  trans : ∀ {a b c}, lt a b = true → lt b c = true → lt a c = true
  eq_of_not_lt : ∀ {a b}, lt a b = false → lt b a = false → a = b

/-- A linear order decides a strict one. -/
theorem isOrder_decide [LT α] [LE α] [DecidableLT α] [Std.IsLinearOrder α] [Std.LawfulOrderLT α] :
    IsOrder fun a b : α => decide (a < b) where
  asymm := by
    intro a b hlt
    simpa [Std.not_lt] using Std.le_of_lt (by simpa using hlt)
  trans := by
    intro a b c hab hbc
    simpa using Std.lt_trans (by simpa using hab) (by simpa using hbc)
  eq_of_not_lt := by
    intro a b hab hba
    exact Std.le_antisymm (by simpa [Std.not_lt] using hba) (by simpa [Std.not_lt] using hab)

variable {lt : α → α → Bool} {a x : α} {l : List α}

theorem IsOrder.irrefl (hlt : IsOrder lt) (a : α) : lt a a = false := by
  cases hself : lt a a with
  | false => rfl
  | true => exact hself.symm.trans (hlt.asymm hself)

/-- Elements that are told apart by two keys are in order by the first key, then by the second. -/
theorem isOrder_lex {κ ν : Type} [BEq κ] [LawfulBEq κ] {lt : κ → κ → Bool} {lt' : ν → ν → Bool}
    (key : α → κ) (next : α → ν) (hlt : IsOrder lt) (hlt' : IsOrder lt')
    (heq : ∀ a b, key a = key b → next a = next b → a = b) :
    IsOrder fun a b => lt (key a) (key b) || (key a == key b && lt' (next a) (next b)) where
  asymm := by
    intro a b hab
    rw [Bool.or_eq_true, Bool.and_eq_true, beq_iff_eq] at hab
    rw [Bool.or_eq_false_iff, Bool.and_eq_false_iff]
    rcases hab with hab | ⟨hkey, hab⟩
    · refine ⟨hlt.asymm hab, Or.inl ?_⟩
      rw [beq_eq_false_iff_ne]
      intro hkey
      rw [hkey, hlt.irrefl] at hab
      cases hab
    · rw [hkey, hlt.irrefl]
      exact ⟨rfl, Or.inr (hlt'.asymm hab)⟩
  trans := by
    intro a b c hab hbc
    rw [Bool.or_eq_true, Bool.and_eq_true, beq_iff_eq] at hab hbc ⊢
    rcases hab with hab | ⟨hkey, hab⟩
    · rcases hbc with hbc | ⟨hkey, -⟩
      · exact Or.inl (hlt.trans hab hbc)
      · exact Or.inl (hkey ▸ hab)
    · rcases hbc with hbc | ⟨hkey', hbc⟩
      · exact Or.inl (hkey ▸ hbc)
      · exact Or.inr ⟨hkey.trans hkey', hlt'.trans hab hbc⟩
  eq_of_not_lt := by
    intro a b hab hba
    rw [Bool.or_eq_false_iff] at hab hba
    have hkey : key a = key b := hlt.eq_of_not_lt hab.1 hba.1
    simp only [hkey, beq_self_eq_true, Bool.true_and] at hab hba
    exact heq a b hkey (hlt'.eq_of_not_lt hab.2 hba.2)

theorem mem_insert (hlt : IsOrder lt) : x ∈ insert lt a l ↔ x = a ∨ x ∈ l := by
  refine ⟨mem_of_mem_insert, ?_⟩
  rintro (rfl | hmem)
  · exact mem_insert_self lt x l
  induction l with
  | nil => simp at hmem
  | cons b l ih =>
    rw [insert]
    split
    · exact List.mem_cons_of_mem _ hmem
    split
    · rcases List.mem_cons.mp hmem with rfl | hmem
      · exact List.mem_cons_self
      · exact List.mem_cons_of_mem _ (ih hmem)
    · obtain rfl : a = b := hlt.eq_of_not_lt (by simpa using ‹¬lt a b = true›)
        (by simpa using ‹¬lt b a = true›)
      exact hmem

theorem pairwise_insert (hlt : IsOrder lt) (hsorted : l.Pairwise (lt · · = true)) :
    (insert lt a l).Pairwise (lt · · = true) := by
  induction l with
  | nil => simp [insert]
  | cons b l ih =>
    obtain ⟨hhead, htail⟩ := List.pairwise_cons.mp hsorted
    rw [insert]
    split
    case isTrue hab =>
      refine List.pairwise_cons.mpr ⟨fun x hx => ?_, hsorted⟩
      rcases List.mem_cons.mp hx with rfl | hx
      · exact hab
      · exact hlt.trans hab (hhead x hx)
    case isFalse hab =>
      split
      case isTrue hba =>
        refine List.pairwise_cons.mpr ⟨fun x hx => ?_, ih htail⟩
        rcases mem_of_mem_insert hx with rfl | hx
        · exact hba
        · exact hhead x hx
      case isFalse hba =>
        obtain rfl : a = b := hlt.eq_of_not_lt (by simpa using hab) (by simpa using hba)
        exact hsorted

/-- An element that goes to a place of its own pushes none out. -/
theorem perm_insert (hapart : ∀ x ∈ l, lt a x = true ∨ lt x a = true) :
    (insert lt a l).Perm (a :: l) := by
  induction l with
  | nil => exact .refl _
  | cons b l ih =>
    obtain ⟨hb, hl⟩ := List.forall_mem_cons.mp hapart
    rw [insert]
    split
    case isTrue => exact .refl _
    case isFalse hab =>
      rw [if_pos (hb.resolve_left hab)]
      exact ((ih hl).cons b).trans (.swap a b l)

theorem mem_foldl_insert (hlt : IsOrder lt) {sorted : List α} :
    x ∈ l.foldl (fun sorted a => insert lt a sorted) sorted ↔ x ∈ l ∨ x ∈ sorted := by
  induction l generalizing sorted with
  | nil => simp
  | cons b l ih =>
    rw [List.foldl_cons, ih, mem_insert hlt, List.mem_cons]
    grind

theorem pairwise_foldl_insert (hlt : IsOrder lt) {sorted : List α}
    (hsorted : sorted.Pairwise (lt · · = true)) :
    (l.foldl (fun sorted a => insert lt a sorted) sorted).Pairwise (lt · · = true) := by
  induction l generalizing sorted with
  | nil => exact hsorted
  | cons b l ih => exact ih (pairwise_insert hlt hsorted)

theorem mem_ofList (hlt : IsOrder lt) : x ∈ ofList lt l ↔ x ∈ l := by
  simp [ofList, mem_foldl_insert hlt]

theorem pairwise_ofList (hlt : IsOrder lt) : (ofList lt l).Pairwise (lt · · = true) :=
  pairwise_foldl_insert hlt List.Pairwise.nil

theorem nodup_ofList (hlt : IsOrder lt) : (ofList lt l).Nodup := by
  refine (pairwise_ofList hlt).imp fun {a b} hab => ?_
  rintro rfl
  simp [hlt.irrefl] at hab

theorem ofList_eq_singleton (hlt : IsOrder lt) (hne : l ≠ []) (hall : ∀ x ∈ l, x = a) :
    ofList lt l = [a] := by
  have hsame : ∀ x ∈ ofList lt l, x = a := fun x hx => hall x ((mem_ofList hlt).mp hx)
  obtain ⟨x, hx⟩ := List.exists_mem_of_ne_nil l hne
  have hmem : x ∈ ofList lt l := (mem_ofList hlt).mpr hx
  cases hsorted : ofList lt l with
  | nil => simp [hsorted] at hmem
  | cons b rest =>
    have hnodup := nodup_ofList (l := l) hlt
    rw [hsorted] at hsame hnodup
    obtain ⟨rfl, hrest⟩ := List.forall_mem_cons.mp hsame
    cases rest with
    | nil => rfl
    | cons c rest =>
      obtain rfl := hrest c List.mem_cons_self
      simp at hnodup

/-- An element that goes to a place of its own is found where nothing was found before it came. -/
theorem find?_insert_of_forall {p : α → Bool} (hapart : ∀ x ∈ l, lt a x = true ∨ lt x a = true)
    (hothers : p a = true → ∀ x ∈ l, p x = false) :
    (insert lt a l).find? p = (l.find? p).or (if p a then some a else none) := by
  induction l with
  | nil => rw [insert, List.find?_singleton, List.find?_nil, Option.none_or]
  | cons b l ih =>
    obtain ⟨hb, hl⟩ := List.forall_mem_cons.mp hapart
    have hrest := ih hl fun hpa x hx => hothers hpa x (List.mem_cons_of_mem _ hx)
    rw [insert]
    split
    case isTrue =>
      by_cases hpa : p a = true
      · have hnone : (b :: l).find? p = none := by
          simpa [List.find?_eq_none] using hothers hpa
        rw [List.find?_cons_of_pos hpa, hnone, if_pos hpa, Option.none_or]
      · rw [List.find?_cons_of_neg hpa, if_neg hpa, Option.or_none]
    case isFalse hab =>
      rw [if_pos (hb.resolve_left hab)]
      by_cases hpb : p b = true
      · rw [List.find?_cons_of_pos hpb, List.find?_cons_of_pos hpb, Option.some_or]
      · rw [List.find?_cons_of_neg hpb, List.find?_cons_of_neg hpb, hrest]

/-- An element is put in where its image is put in among the images. -/
theorem insert_map {β : Type} (lt : β → β → Bool) (f : α → β) (a : α) (l : List α) :
    insert lt (f a) (l.map f) = (insert (fun x y => lt (f x) (f y)) a l).map f := by
  induction l with
  | nil => rfl
  | cons b l ih =>
    rw [List.map_cons, insert, insert]
    split
    · rfl
    · split
      · rw [ih, List.map_cons]
      · rfl

/-- Putting a value under a key is inserting by the key. -/
theorem put_map {κ ν : Type} (lt : κ → κ → Bool) (key : α → κ) (value : α → ν) (a : α) (l : List α) :
    put lt (key a) (value a) (l.map fun x => (key x, value x)) =
      (insert (fun x y => lt (key x) (key y)) a l).map fun x => (key x, value x) :=
  insert_map (fun x y : κ × ν => lt x.1 y.1) (fun x => (key x, value x)) a l

variable [BEq κ] [LawfulBEq κ] {β : Type} {key : β → κ}

/-- Groups by keys that are all there and all different make up the list again. -/
theorem flatMap_filter_perm {keys : List κ} {items : List β} (hnodup : keys.Nodup)
    (hkeys : ∀ item ∈ items, key item ∈ keys) :
    (keys.flatMap fun k => items.filter (key · == k)).Perm items := by
  induction keys generalizing items with
  | nil =>
    obtain rfl : items = [] := List.eq_nil_iff_forall_not_mem.mpr (by simpa using hkeys)
    exact .refl _
  | cons k keys ih =>
    obtain ⟨hk, hnodup⟩ := List.nodup_cons.mp hnodup
    -- The other groups do not change when the first one is taken out of the items.
    have hrest : (keys.flatMap fun k' => items.filter (key · == k')) =
        keys.flatMap fun k' => (items.filter (!key · == k)).filter (key · == k') := by
      refine List.flatMap_congr fun k' hk' => ?_
      rw [List.filter_filter]
      refine List.filter_congr fun item hitem => ?_
      have hne : k ≠ k' := by
        rintro rfl
        exact hk hk'
      grind
    have hothers : ∀ item ∈ items.filter (!key · == k), key item ∈ keys := by
      intro item hitem
      obtain ⟨hitem, hne⟩ := List.mem_filter.mp hitem
      exact List.mem_of_ne_of_mem (by simpa using hne) (hkeys item hitem)
    rw [List.flatMap_cons, hrest]
    exact ((ih hnodup hothers).append_left _).trans (List.filter_append_perm _ _)

/-- Grouping by a key loses no element and repeats none. -/
theorem flatMap_ofList_filter_perm {lt : κ → κ → Bool} (hlt : IsOrder lt) (items : List β) :
    ((ofList lt (items.map key)).flatMap fun k => items.filter (key · == k)).Perm items :=
  flatMap_filter_perm (nodup_ofList hlt) fun _ hitem =>
    (mem_ofList hlt).mpr (List.mem_map_of_mem hitem)

/-- What is picked from a list with the positions comes in their order. -/
theorem pairwise_filterMap_zipIdx {β : Type} {f : α × Nat → Option β} {position : β → Nat}
    (hposition : ∀ item b, f item = some b → position b = item.2) :
    (l.zipIdx.filterMap f).Pairwise (position · < position ·) := by
  have hindices : l.zipIdx.Pairwise (·.2 < ·.2) := by
    rw [← List.pairwise_map, List.zipIdx_map_snd]
    exact List.pairwise_lt_range'
  apply hindices.filterMap
  intro first second hlt a ha b hb
  rw [hposition first a ha, hposition second b hb]
  exact hlt

end Sorted

theorem Server.before_iff {a b : Server} :
    a.before b = true ↔
      a.presentable < b.presentable ∨ a.presentable = b.presentable ∧ a.uri < b.uri := by
  simp [Server.before]

theorem Server.isOrder_before : Sorted.IsOrder Server.before :=
  Sorted.isOrder_lex Server.presentable Server.uri Sorted.isOrder_decide Sorted.isOrder_decide
    fun a b hpresentable huri => by
      cases a
      cases b
      simp_all

end Reconcile

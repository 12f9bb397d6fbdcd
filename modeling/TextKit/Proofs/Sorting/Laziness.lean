import Mathlib
import TextKit.Proofs.Sorting.Comparisons
import TextKit.Proofs.Sorting.Production

/-!
# What has been compared, and what has not

The visits of a sort record their comparisons. In every state the spans that are still
pending have been spared: no two places of such a span have been compared, and a visit has
either nothing to do with the span or partitioned a greater one around it. So whatever is
compared when the span is visited in its turn has not been compared before, and the parts of
the span are spared again, because the pivot that all comparisons share is alone in its part.

The comparators are arbitrary functions here, and so is the seed. It follows that no two
items are ever compared twice, and that spans which are not reached cost nothing beyond the
partitions on the way to those that are.
-/

namespace TextKit.Sorting

variable {α : Type} {n : Nat}

namespace Span

/-- The places that stand in the slots of a span. -/
abbrev Holds (span : Span n) (a : Arrangement n) (p : Fin n) : Prop :=
  Stands a span.start span.stop p

/-- No slot is in both spans. -/
def Apart (s t : Span n) : Prop := s.stop ≤ t.start ∨ t.stop ≤ s.start

/-- All slots of `inner` are in `outer`, which has more. -/
structure Encloses (outer inner : Span n) : Prop where
  start_le : outer.start ≤ inner.start
  stop_le : inner.stop ≤ outer.stop
  size_lt : inner.size < outer.size

/-- The parts of a span that is cut around one of its slots. -/
def parts (s : Span n) (slot : Nat) (h : s.start ≤ slot ∧ slot < s.stop) : List (Span n) :=
  [s.before slot h, s.single slot h, s.after slot h]

theorem encloses_of_mem_parts {s part : Span n} {slot : Nat}
    {h : s.start ≤ slot ∧ slot < s.stop} (hlarge : 1 < s.size) (hpart : part ∈ s.parts slot h) :
    s.Encloses part := by
  simp only [parts, List.mem_cons, List.not_mem_nil, or_false] at hpart
  obtain rfl | rfl | rfl := hpart
  · exact ⟨Nat.le_refl _, Nat.le_of_lt h.2, Nat.sub_lt_sub_right h.1 h.2⟩
  · exact ⟨h.1, h.2, by rwa [size_single]⟩
  · refine ⟨Nat.le_succ_of_le h.1, Nat.le_refl _, ?_⟩
    rw [size_after, size]
    omega

/-- The place in the slot of a cut is alone in its part. -/
theorem eq_of_mem_parts {s part : Span n} {slot : Nat} {h : s.start ≤ slot ∧ slot < s.stop}
    (hpart : part ∈ s.parts slot h) {a : Arrangement n} (ha : Function.Injective a.place)
    (hslot : slot < n) (hheld : part.Holds a (a.place ⟨slot, hslot⟩)) {p : Fin n}
    (hp : part.Holds a p) : p = a.place ⟨slot, hslot⟩ := by
  have hplace := Stands.of_slot a hslot (Nat.le_refl slot) (Nat.lt_succ_self slot)
  simp only [parts, List.mem_cons, List.not_mem_nil, or_false] at hpart
  obtain rfl | rfl | rfl := hpart
  · exact absurd hheld (hplace.not_stands ha (.inr (Nat.le_refl slot)))
  · obtain heq | ⟨i, hlo, hhi, -⟩ := (Stands.iff_first hslot (Nat.lt_succ_self slot)).mp hp
    · exact heq
    · exact absurd hhi (Nat.not_lt_of_le hlo)
  · exact absurd hheld (hplace.not_stands ha (.inl (Nat.le_refl (slot + 1))))

theorem Encloses.trans {s t u : Span n} (h : s.Encloses t) (h' : t.Encloses u) : s.Encloses u :=
  ⟨Nat.le_trans h.start_le h'.start_le, Nat.le_trans h'.stop_le h.stop_le,
    Nat.lt_trans h'.size_lt h.size_lt⟩

theorem Apart.of_encloses {s t u : Span n} (h : s.Apart t) (h' : t.Encloses u) : s.Apart u := by
  obtain hle | hle := h
  · exact .inl (Nat.le_trans hle h'.start_le)
  · exact .inr (Nat.le_trans h'.stop_le hle)

theorem Holds.of_encloses {outer inner : Span n} {a : Arrangement n} {p : Fin n}
    (h : inner.Holds a p) (h' : outer.Encloses inner) : outer.Holds a p :=
  Stands.mono h h'.start_le h'.stop_le

/-- Rearranging a span moves no place into or out of a span apart or around. -/
theorem holds_iff {s t : Span n} {a b : Arrangement n} {p : Fin n}
    (hmove : Rearranges t.start t.stop a b) (h : s.Apart t ∨ s.Encloses t) :
    s.Holds b p ↔ s.Holds a p := by
  apply hmove.stands_iff
  obtain (hle | hle) | h := h
  · exact .inr (.inr hle)
  · exact .inr (.inl hle)
  · exact .inl ⟨h.start_le, h.stop_le⟩

theorem Apart.not_holds {s t : Span n} (h : s.Apart t) {a : Arrangement n}
    (ha : Function.Injective a.place) {p : Fin n} (hp : s.Holds a p) : ¬ t.Holds a p :=
  Stands.not_stands hp ha h

end Span

/-- A partition that compared with its pivot only. -/
def Visit.Partitions (v : Visit n) : Prop :=
  ∃ pivot, v.pivot = some pivot ∧ ∀ p ∈ v.comparisons.toList, p.2 = pivot

namespace Progress

/-- All comparisons made so far, oldest first. -/
def log (s : Progress α n) : List (Fin n × Fin n) :=
  s.visits.toList.flatMap (·.comparisons.toList)

/-- The visit `v` of the nearest span leads from `s` to `t`, where `parts` of the span are
pending. It compares places of the span, and never two that are in the same part. -/
structure Visits (s t : Progress α n) (v : Visit n) (parts rest : List (Span n)) : Prop where
  visits_eq : t.visits = s.visits.push v
  pending_eq : t.pending = parts ++ rest
  moved : Rearranges v.span.start v.span.stop s.slots t.slots
  unrepeated : Unrepeated v.comparisons.toList
  inside : ∀ p ∈ v.comparisons.toList, v.span.Holds s.slots p.1 ∧ v.span.Holds s.slots p.2
  parts : ∀ part ∈ parts, v.span.Encloses part ∧ v.Partitions ∧
    ∀ p ∈ v.comparisons.toList, ¬ (part.Holds t.slots p.1 ∧ part.Holds t.slots p.2)

namespace Visits

variable {s t : Progress α n} {v : Visit n} {parts rest : List (Span n)}

theorem log_eq (h : Visits s t v parts rest) : t.log = s.log ++ v.comparisons.toList := by
  rw [log, h.visits_eq, Array.toList_push, List.flatMap_append, List.flatMap_singleton, log]

theorem forall_visits_iff (h : Visits s t v parts rest) {P : Visit n → Prop} :
    (∀ u ∈ t.visits.toList, P u) ↔ (∀ u ∈ s.visits.toList, P u) ∧ P v := by
  rw [h.visits_eq, Array.toList_push, List.forall_mem_append, List.forall_mem_singleton]

theorem forall_pending_iff (h : Visits s t v parts rest) {P : Span n → Prop} :
    (∀ span ∈ t.pending, P span) ↔ (∀ part ∈ parts, P part) ∧ ∀ other ∈ rest, P other := by
  rw [h.pending_eq, List.forall_mem_append]

theorem holds_iff (h : Visits s t v parts rest) {p : Fin n} :
    v.span.Holds t.slots p ↔ v.span.Holds s.slots p :=
  h.moved.stands_iff (.inl ⟨Nat.le_refl _, Nat.le_refl _⟩)

end Visits

/-- Sorting a span by insertion leaves no part of it pending. -/
theorem settle_visits (order : Fin n → Fin n → Ordering) (span : Span n) (rest : List (Span n))
    (s : Progress α n) (hinj : Function.Injective s.slots.place) :
    ∃ v : Visit n, v.span = span ∧ Visits s (s.settle order span rest) v [] rest := by
  obtain ⟨log, hlog, hunrepeated, hinside⟩ :=
    Draft.insertionSort_comparisons order span ⟨s.slots, #[]⟩ hinj
  rw [List.nil_append] at hlog
  refine ⟨⟨span, none, _⟩, rfl, rfl, rfl, ?_, hlog ▸ hunrepeated, hlog ▸ hinside, ?_⟩
  · exact Draft.insertionSort_rearranges order span ⟨s.slots, #[]⟩
  · exact fun part hpart => absurd hpart List.not_mem_nil

/-- A partition compares every other place of its span once with the pivot, which stands in
the slot where the span was cut. -/
theorem cut_comparisons (order : Fin n → Fin n → Ordering) (span : Span n)
    (h : span.start < span.stop) (s : Progress α n) (hinj : Function.Injective s.slots.place)
    (hslot : (s.cut order span h).2.val < n) :
    ∃ others : List (Fin n), (s.cut order span h).1.comparisons.toList =
        others.map (·, (s.cut order span h).1.slots.place ⟨_, hslot⟩) ∧
      others.Nodup ∧ ∀ x, x ∈ others ↔ span.Holds s.slots x ∧
        x ≠ (s.cut order span h).1.slots.place ⟨_, hslot⟩ := by
  obtain ⟨pivot, others, hpivot, hlog, hnodup, hothers⟩ :=
    Draft.partition_comparisons order span _
      ⟨s.source.advance.start_le_select .., s.source.advance.select_lt_stop h⟩ ⟨s.slots, #[]⟩ hinj
  obtain rfl : (s.cut order span h).1.slots.place ⟨_, hslot⟩ = pivot := hpivot _ rfl
  exact ⟨others, hlog, hnodup, hothers⟩

/-- Partitioning a span leaves its three parts pending, of which one has the pivot alone. -/
theorem split_visits (order : Fin n → Fin n → Ordering) (span : Span n) (rest : List (Span n))
    (s : Progress α n) (hinj : Function.Injective s.slots.place) (hspan : span.start < span.stop)
    (hlarge : insertionSortThreshold < span.size) :
    ∃ (v : Visit n) (parts : List (Span n)), v.span = span ∧
      Visits s (s.split order span hspan rest) v parts rest := by
  have hmove := cut_rearranges order span hspan s
  have hslot := (s.cut order span hspan).2.property
  have hlt : (s.cut order span hspan).2.val < n := Nat.lt_of_lt_of_le hslot.2 span.stop_le
  obtain ⟨others, hlog, hnodup, hothers⟩ := cut_comparisons order span hspan s hinj hlt
  have hpivot : span.Holds s.slots ((s.cut order span hspan).1.slots.place ⟨_, hlt⟩) :=
    (hmove.stands_iff (.inl ⟨Nat.le_refl _, Nat.le_refl _⟩)).mp (.of_slot _ hlt hslot.1 hslot.2)
  have hwithPivot : ∀ p ∈ (s.cut order span hspan).1.comparisons.toList, span.Holds s.slots p.1 ∧
      p.1 ≠ p.2 ∧ p.2 = (s.cut order span hspan).1.slots.place ⟨_, hlt⟩ := by
    rw [hlog]
    intro p hp
    obtain ⟨x, hx, rfl⟩ := List.mem_map.mp hp
    exact ⟨((hothers x).mp hx).1, ((hothers x).mp hx).2, rfl⟩
  refine ⟨_, span.parts _ hslot, rfl, rfl, rfl, hmove, ?_, ?_, ?_⟩
  · rw [hlog]
    exact .with_value hnodup fun hmem => ((hothers _).mp hmem).2 rfl
  · intro p hp
    obtain ⟨hinside, -, heq⟩ := hwithPivot p hp
    exact ⟨hinside, heq ▸ hpivot⟩
  · intro part hpart
    refine ⟨Span.encloses_of_mem_parts (Nat.lt_trans (by decide) hlarge) hpart,
      ⟨_, rfl, fun p hp => (hwithPivot p hp).2.2⟩, ?_⟩
    rintro p hp ⟨hl, hr⟩
    obtain ⟨-, hne, heq⟩ := hwithPivot p hp
    rw [heq] at hne hr
    exact hne (Span.eq_of_mem_parts hpart (hmove.injective hinj) hlt hr hl)

/-- What has been compared so far, as far as the spans that are pending are concerned. -/
structure Sparing (s : Progress α n) : Prop where
  unrepeated : Unrepeated s.log
  inside : ∀ v ∈ s.visits.toList, ∀ p ∈ v.comparisons.toList,
    v.span.Holds s.slots p.1 ∧ v.span.Holds s.slots p.2
  around : ∀ v ∈ s.visits.toList, ∀ span ∈ s.pending,
    v.span.Apart span ∨ v.span.Encloses span ∧ v.Partitions
  spared : ∀ span ∈ s.pending, ∀ p ∈ s.log,
    ¬ (span.Holds s.slots p.1 ∧ span.Holds s.slots p.2)

theorem sparing_start (items : Vector α n) (source : PivotSource) :
    (start items source).Sparing where
  unrepeated := .nil
  inside _ hv := absurd hv List.not_mem_nil
  around _ hv := absurd hv List.not_mem_nil
  spared _ _ _ hp := absurd hp List.not_mem_nil

namespace Sparing

variable {order : Fin n → Fin n → Ordering} {items : Vector α n} {s t : Progress α n}
variable {v : Visit n} {parts rest : List (Span n)}

/-- No two places of the nearest span had been compared. -/
theorem unrepeated_visit (h : s.Sparing) (hnearest : v.span ∈ s.pending)
    (hvisit : Visits s t v parts rest) : Unrepeated t.log := by
  rw [hvisit.log_eq]
  refine h.unrepeated.append hvisit.unrepeated ?_
  intro p hp q hq heq
  obtain ⟨hl, hr⟩ := hvisit.inside q hq
  obtain ⟨h1, h2⟩ | ⟨h1, h2⟩ := Sym2.eq_iff.mp heq
  · exact h.spared v.span hnearest p hp ⟨h1 ▸ hl, h2 ▸ hr⟩
  · exact h.spared v.span hnearest p hp ⟨h1 ▸ hr, h2 ▸ hl⟩

theorem inside_visit (h : s.Sparing) (hnearest : v.span ∈ s.pending)
    (hvisit : Visits s t v parts rest) :
    ∀ u ∈ t.visits.toList, ∀ p ∈ u.comparisons.toList,
      u.span.Holds t.slots p.1 ∧ u.span.Holds t.slots p.2 := by
  refine hvisit.forall_visits_iff.mpr ⟨?_, ?_⟩
  · intro u hu p hp
    have haround : u.span.Apart v.span ∨ u.span.Encloses v.span :=
      (h.around u hu v.span hnearest).imp_right And.left
    rw [Span.holds_iff hvisit.moved haround, Span.holds_iff hvisit.moved haround]
    exact h.inside u hu p hp
  · intro p hp
    rw [hvisit.holds_iff, hvisit.holds_iff]
    exact hvisit.inside p hp

theorem around_visit (h : s.Sparing) (nearest : s.pending = v.span :: rest)
    (hbehind : ∀ other ∈ rest, v.span.Apart other) (hvisit : Visits s t v parts rest) :
    ∀ u ∈ t.visits.toList, ∀ span ∈ t.pending,
      u.span.Apart span ∨ u.span.Encloses span ∧ u.Partitions := by
  refine hvisit.forall_visits_iff.mpr ⟨?_, ?_⟩
  · intro u hu
    obtain ⟨hspan, hrest⟩ := List.forall_mem_cons.mp (nearest ▸ h.around u hu)
    refine hvisit.forall_pending_iff.mpr ⟨?_, hrest⟩
    intro part hpart
    have hencloses := (hvisit.parts part hpart).1
    obtain happart | ⟨hu', hpartitions⟩ := hspan
    · exact .inl (happart.of_encloses hencloses)
    · exact .inr ⟨hu'.trans hencloses, hpartitions⟩
  · refine hvisit.forall_pending_iff.mpr ⟨?_, fun other hother => .inl (hbehind other hother)⟩
    intro part hpart
    obtain ⟨hencloses, hpartitions, -⟩ := hvisit.parts part hpart
    exact .inr ⟨hencloses, hpartitions⟩

theorem spared_visit (h : s.Sparing) (hinj : Function.Injective s.slots.place)
    (nearest : s.pending = v.span :: rest) (hbehind : ∀ other ∈ rest, v.span.Apart other)
    (hvisit : Visits s t v parts rest) :
    ∀ span ∈ t.pending, ∀ p ∈ t.log, ¬ (span.Holds t.slots p.1 ∧ span.Holds t.slots p.2) := by
  obtain ⟨hspan, hrest⟩ := List.forall_mem_cons.mp (nearest ▸ h.spared)
  rw [hvisit.log_eq]
  refine hvisit.forall_pending_iff.mpr ⟨?_, ?_⟩
  · intro part hpart
    obtain ⟨hencloses, -, hparts⟩ := hvisit.parts part hpart
    refine List.forall_mem_append.mpr ⟨?_, hparts⟩
    rintro p hp ⟨hl, hr⟩
    exact hspan p hp ⟨hvisit.holds_iff.mp (hl.of_encloses hencloses),
      hvisit.holds_iff.mp (hr.of_encloses hencloses)⟩
  · -- A span behind keeps its places, of which the visit compares none.
    intro other hother
    have happart := hbehind other hother
    have hkept : ∀ p, other.Holds t.slots p ↔ other.Holds s.slots p := fun p =>
      Span.holds_iff hvisit.moved (.inl happart.symm)
    refine List.forall_mem_append.mpr ⟨?_, ?_⟩
    · intro p hp
      rw [hkept, hkept]
      exact hrest other hother p hp
    · rintro p hp ⟨hl, -⟩
      exact happart.not_holds hinj (hvisit.inside p hp).1 ((hkept p.1).mp hl)

/-- A visit of the nearest span spares what is pending after it. -/
theorem visit (h : s.Sparing) (hinj : Function.Injective s.slots.place)
    (nearest : s.pending = v.span :: rest) (htiles : Tiles v.span.stop rest)
    (hvisit : Visits s t v parts rest) : t.Sparing := by
  have hnearest : v.span ∈ s.pending := by simp [nearest]
  have hbehind : ∀ other ∈ rest, v.span.Apart other := fun other hother =>
    .inl (htiles.le_start hother)
  exact ⟨h.unrepeated_visit hnearest hvisit, h.inside_visit hnearest hvisit,
    h.around_visit nearest hbehind hvisit, h.spared_visit hinj nearest hbehind hvisit⟩

/-- Passes spare what they leave pending. -/
theorem passes (h : s.Sparing) (hs : s.Consistent items) (hpasses : Passes order s t) :
    t.Sparing := by
  refine hs.induction h ?_ ?_ ?_ hpasses
  · intro s hready _ h
    exact ⟨h.unrepeated, h.inside, h.around, h.spared⟩
  · intro s span rest hs nearest _ htiles h
    obtain ⟨v, rfl, hvisit⟩ := settle_visits order span rest s hs.injective
    exact h.visit hs.injective nearest htiles hvisit
  · intro s span rest hs nearest _ htiles hspan hlarge h
    obtain ⟨v, parts, rfl, hvisit⟩ := split_visits order span rest s hs.injective hspan hlarge
    exact h.visit hs.injective nearest htiles hvisit

end Sparing

end Progress

namespace Chain

/-- A comparison asks the first level, if there is one. -/
theorem asked_pos {chain : Chain n} (h : chain ≠ []) (l r : Fin n) : 0 < chain.asked l r := by
  cases chain with
  | nil => exact absurd rfl h
  | cons level rest =>
      rw [asked]
      split
      · exact Nat.succ_pos _
      · exact Nat.one_pos

end Chain

namespace Sorted

/-- Each comparison makes one call on the first level. -/
theorem countP_levelCallsFrom (s : Sorted α) (h : s.chain ≠ []) (first : Nat) :
    (s.levelCallsFrom first).countP (·.level == 0) = (s.comparisonsFrom first).length := by
  have hone : ∀ p : Fin s.size × Fin s.size,
      ((List.range (s.chain.asked p.1 p.2)).map fun level =>
        (⟨level, p.1.val, p.2.val⟩ : LevelCall)).countP (·.level == 0) = 1 := by
    intro p
    rw [List.countP_map]
    exact List.count_eq_one_of_mem List.nodup_range
      (List.mem_range.mpr (Chain.asked_pos h p.1 p.2))
  rw [levelCallsFrom, List.countP_flatMap]
  simp only [Function.comp_def, hone, List.map_const', List.sum_replicate, smul_eq_mul, mul_one]

/-- A span that is still pending has not been touched. Its places were never compared with
each other. A comparison that one of them took part in was made by partitioning a greater
span around it, with the pivot on one side. Any other visit was to slots apart from it. -/
structure Unreached (s : Sorted α) (span : Span s.size) : Prop where
  never_compared : ∀ l r, span.Holds s.progress.slots l → span.Holds s.progress.slots r →
    (l, r) ∉ s.comparisonsFrom 0
  compared_with_pivot : ∀ v ∈ s.progress.visits.toList, ∀ p ∈ v.comparisons.toList,
    span.Holds s.progress.slots p.1 ∨ span.Holds s.progress.slots p.2 →
      v.span.Encloses span ∧ ∃ pivot, v.pivot = some pivot ∧ (p.1 = pivot ∨ p.2 = pivot)
  visited_around : ∀ v ∈ s.progress.visits.toList,
    v.span.Apart span ∨ v.span.Encloses span ∧ v.pivot.isSome = true

theorem unreached_of_sparing {s : Sorted α} (h : s.progress.Sparing)
    (hinj : Function.Injective s.progress.slots.place) {span : Span s.size}
    (hspan : span ∈ s.progress.pending) : s.Unreached span where
  never_compared l r hl hr hmem := h.spared span hspan (l, r) hmem ⟨hl, hr⟩
  compared_with_pivot v hv p hp hheld := by
    obtain ⟨h1, h2⟩ := h.inside v hv p hp
    obtain happart | ⟨hencloses, pivot, hpivot, hall⟩ := h.around v hv span hspan
    · obtain hheld | hheld := hheld
      · exact absurd hheld (happart.not_holds hinj h1)
      · exact absurd hheld (happart.not_holds hinj h2)
    · exact ⟨hencloses, pivot, hpivot, .inr (hall p hp)⟩
  visited_around v hv := by
    obtain happart | ⟨hencloses, pivot, hpivot, -⟩ := h.around v hv span hspan
    · exact .inl happart
    · exact .inr ⟨hencloses, by rw [hpivot]; rfl⟩

end Sorted

namespace Sequence

variable (sequence : Sequence α) (clock : UInt64)

theorem sparing_after (k : Nat) : ((sequence.start clock).after k).progress.Sparing := by
  have hs := sequence.initial_consistent clock
  rw [Sorted.after_eq]
  exact (Progress.sparing_start _ _).passes hs (hs.passes_after sequence.order (Nat.zero_le k))

/-- Whatever the comparators answer, no place is compared with itself, and no two places are
compared twice over the whole life of a stream, in whichever order. So there are at most as
many comparisons as pairs. Each of them is one call of the comparator of the first level. -/
theorem never_compared_twice (k : Nat) :
    (∀ p ∈ ((sequence.start clock).after k).comparisonsFrom 0, p.1 ≠ p.2) ∧
    ((((sequence.start clock).after k).comparisonsFrom 0).map fun p => s(p.1, p.2)).Nodup ∧
    (((sequence.start clock).after k).comparisonsFrom 0).length ≤
      sequence.items.length * (sequence.items.length - 1) / 2 ∧
    (sequence.levels ≠ [] →
      (((sequence.start clock).after k).levelCallsFrom 0).countP (·.level == 0) =
        (((sequence.start clock).after k).comparisonsFrom 0).length) := by
  have hunrepeated := (sequence.sparing_after clock k).unrepeated
  refine ⟨hunrepeated.ne, hunrepeated.nodup, ?_, ?_⟩
  · have hsize : ((sequence.start clock).after k).size = sequence.items.length := by
      rw [Sorted.after_eq]
      rfl
    rw [← hsize]
    exact hunrepeated.length_le
  · intro hlevels
    apply Sorted.countP_levelCallsFrom
    rw [Sorted.after_eq]
    exact mt List.map_eq_nil_iff.mp hlevels

/-- Twelve items whose order goes round in circles. -/
def circular : Sequence Nat :=
  (orderBy (List.range 12) {
    key := id
    compare := fun a b => if a = b then .eq else if (a + 1) % 3 = b % 3 then .lt else .gt
    direction := .ascending }).withSeed 3

/-- After the first item, each of the other places has been compared with the first pivot. -/
theorem never_compared_twice_of_circular :
    (∃ p ∈ ((circular.start 0).after 1).comparisonsFrom 0,
      (p.1.val, p.2.val) = (0, 3) ∧ p.1 ≠ p.2) ∧
    circular.levels ≠ [] ∧
    (((circular.start 0).after 1).levelCallsFrom 0).countP (·.level == 0) = 17 := by
  have hlog : (((circular.start 0).after 1).comparisonsFrom 0).map
      (fun p => (p.1.val, p.2.val)) = [(0, 3), (1, 3), (2, 3), (11, 3), (4, 3), (5, 3), (6, 3),
        (7, 3), (8, 3), (9, 3), (10, 3), (2, 11), (2, 5), (11, 5), (2, 8), (11, 8), (5, 8)] := by
    cbv
  obtain ⟨hne, -, -, hcalls⟩ := never_compared_twice circular 0 1
  obtain ⟨p, hp, heq⟩ := List.mem_map.mp (hlog ▸ List.mem_cons_self)
  have hlevels : circular.levels ≠ [] := List.cons_ne_nil _ _
  refine ⟨⟨p, hp, heq, hne p hp⟩, hlevels, ?_⟩
  rw [hcalls hlevels, ← List.length_map, hlog]
  rfl

/-- Whatever the comparators answer, and however many items were asked for, the spans that
are still pending have not been touched. -/
theorem pending_unreached (k : Nat) :
    ∀ span ∈ ((sequence.start clock).after k).progress.pending,
      ((sequence.start clock).after k).Unreached span := by
  intro span hspan
  have hinj : Function.Injective ((sequence.start clock).after k).progress.slots.place := by
    rw [Sorted.after_eq]
    exact ((sequence.initial_consistent clock).after sequence.order k).injective
  exact Sorted.unreached_of_sparing (sequence.sparing_after clock k) hinj hspan

/-- The first item is found without touching the seven slots at the end, although their places
were compared with the first pivot. -/
theorem pending_unreached_of_circular :
    ∃ span ∈ ((circular.start 0).after 1).progress.pending, (span.start, span.stop) = (5, 12) ∧
      (((circular.start 0).after 1).comparisonsFrom 0).length = 17 ∧
      ((circular.start 0).after 1).Unreached span := by
  have hpending : ((circular.start 0).after 1).progress.pending.map
      (fun span => (span.start, span.stop)) = [(4, 5), (5, 12)] := by
    cbv
  obtain ⟨span, hspan, heq⟩ := List.mem_map.mp
    (hpending ▸ List.mem_cons_of_mem (4, 5) (List.mem_singleton_self (5, 12)))
  exact ⟨span, hspan, heq, by cbv, pending_unreached circular 0 1 span hspan⟩

end Sequence

end TextKit.Sorting

import Thumbnailer.Render.Dpi

/-!
# The DPI memo

The memo keeps the values by key and a queue of the keys in the order they were stored. A new
key joins the back of the queue, and `DpiCache.trim` pops keys from its front, with their
values, while more than `memoCapacity` are queued (`trim_order`, `trim_values`). So the queue
always holds the stored keys, once each and never more than `memoCapacity` of them
(`DpiCache.Wf`), and the key that leaves is the one stored first.

The values hold what the calls of a session stored: each is the formula, at the calculator's
present ratio, for an earlier call with its key, since a new ratio empties the memo
(`Memoised`). Hence a call answers with the formula for its own arguments, or with the value of
an earlier call whose key is its own.

Main statement: `dpi_memo_stays_sound`.
-/

namespace Thumbnailer
namespace Render

namespace DpiCache

/-! ### Reading the values -/

/-- Dropping the values of some keys leaves the others where they were. -/
theorem lookup_filter_not_mem (values : List (DpiKey × Float)) (keys : List DpiKey) (k : DpiKey) :
    (values.filter (fun e => decide (e.1 ∉ keys))).lookup k = if k ∈ keys then none else values.lookup k := by
  induction values with
  | nil => simp
  | cons e rest ih =>
    obtain ⟨k', v⟩ := e
    simp only [decide_not] at ih ⊢
    by_cases hk : k = k'
    · subst hk
      by_cases hq : k ∈ keys <;> simp [hq, ih]
    · have hne : (k == k') = false := beq_false_of_ne hk
      by_cases hq : k' ∈ keys <;> simp [hq, List.lookup_cons, ih, hne]

theorem get?_eq_none_iff (c : DpiCache) (k : DpiKey) : c.get? k = none ↔ k ∉ c.values.map (·.1) := by
  simp only [get?, List.lookup_eq_none_iff, bne_iff_ne, ne_eq, List.mem_map, not_exists, not_and]
  exact ⟨fun h e he hk => h e he hk.symm, fun h e he hk => h e he hk.symm⟩

@[simp] theorem get?_empty (k : DpiKey) : ({} : DpiCache).get? k = none := rfl

/-! ### The queue -/

/-- The queue holds the stored keys, each once, and no more than `memoCapacity` of them. -/
structure Wf (c : DpiCache) : Prop where
  keys : (c.values.map (·.1)).Perm c.order
  nodup : c.order.Nodup
  bounded : c.order.length ≤ memoCapacity

theorem wf_empty : Wf {} := ⟨List.Perm.nil, List.nodup_nil, Nat.zero_le _⟩

theorem Wf.get?_eq_none_iff {c : DpiCache} (hc : c.Wf) (k : DpiKey) : c.get? k = none ↔ k ∉ c.order := by
  rw [DpiCache.get?_eq_none_iff, hc.keys.mem_iff]

/-- **The trimming loop** keeps the back of the queue, `memoCapacity` keys at most. -/
theorem trim_order (values : List (DpiKey × Float)) (order : List DpiKey) :
    (trim values order).order = order.drop (order.length - memoCapacity) := by
  induction order generalizing values with
  | nil => rfl
  | cons k rest ih =>
    unfold trim
    split
    · rw [ih]
      simp only [List.length_cons]
      rw [show rest.length + 1 - memoCapacity = (rest.length - memoCapacity) + 1 by omega]
      rfl
    · rename_i h
      rw [show (k :: rest).length - memoCapacity = 0 by simp; omega]
      rfl

/-- The trimming loop removes the values of the keys it pops. -/
theorem trim_values (values : List (DpiKey × Float)) (order : List DpiKey) :
    (trim values order).values =
      values.filter (fun e => decide (e.1 ∉ order.take (order.length - memoCapacity))) := by
  induction order generalizing values with
  | nil => exact (List.filter_eq_self.2 fun _ _ => rfl).symm
  | cons k rest ih =>
    unfold trim
    split
    · -- the front key goes with its value; the rest of the loop drops the others
      rename_i h
      have hn : rest.length + 1 - memoCapacity = (rest.length - memoCapacity) + 1 := by omega
      rw [ih, eraseKey, List.filter_filter]
      congr 1
      funext e
      by_cases hk : e.1 = k <;> simp [hn, List.take_succ_cons, hk]
    · rename_i h
      have hn : rest.length + 1 - memoCapacity = 0 := by omega
      simp only [List.length_cons, hn, List.take_zero, List.not_mem_nil, not_false_eq_true, decide_true]
      exact (List.filter_eq_self.2 fun _ _ => rfl).symm

/-- In a queue without repeats, the keys outside its front are its back. -/
theorem filter_not_mem_take {l : List DpiKey} (hl : l.Nodup) (n : Nat) :
    l.filter (fun x => decide (x ∉ l.take n)) = l.drop n := by
  have hdisj := (List.nodup_append.1 ((List.take_append_drop n l).symm ▸ hl)).2.2
  calc l.filter (fun x => decide (x ∉ l.take n))
      = (l.take n ++ l.drop n).filter (fun x => decide (x ∉ l.take n)) := by rw [List.take_append_drop]
    _ = (l.take n).filter (fun x => decide (x ∉ l.take n)) ++
          (l.drop n).filter (fun x => decide (x ∉ l.take n)) := List.filter_append _ _
    _ = [] ++ l.drop n := by
      rw [List.filter_eq_nil_iff.2 fun a ha => by simpa using ha,
        List.filter_eq_self.2 fun b hb => by simpa using fun ha => hdisj b ha b hb rfl]
    _ = l.drop n := List.nil_append _

section Insert

variable {c : DpiCache} {k : DpiKey} {d : Float}

theorem insert_of_get?_none (h : c.get? k = none) : c.insert k d = trim ((k, d) :: c.values) (c.order ++ [k]) := by
  have hk := (get?_eq_none_iff c k).1 h
  have herase : eraseKey c.values k = c.values :=
    List.filter_eq_self.2 fun e he => bne_iff_ne.2 fun hek => hk (List.mem_map.2 ⟨e, he, hek⟩)
  simp [insert, h, herase]

/-- **A new key joins the back of the queue**, and the front leaves while the queue is too long. -/
theorem insert_order (h : c.get? k = none) :
    (c.insert k d).order = (c.order ++ [k]).drop (c.order.length + 1 - memoCapacity) := by
  rw [insert_of_get?_none h, trim_order, List.length_append, List.length_singleton]

/-- After storing `d` under a new key, a key holds `d` or the value it held before. -/
theorem get?_insert_eq_some (h : c.get? k = none) {k' : DpiKey} {v : Float}
    (hv : (c.insert k d).get? k' = some v) : (k' = k ∧ v = d) ∨ c.get? k' = some v := by
  rw [get?, insert_of_get?_none h, trim_values, lookup_filter_not_mem] at hv
  split at hv
  · cases hv
  · by_cases hk : k' = k
    · subst hk
      rw [List.lookup_cons_self, Option.some.injEq] at hv
      exact .inl ⟨rfl, hv.symm⟩
    · have hne : (k' == k) = false := beq_false_of_ne hk
      rw [List.lookup_cons, hne] at hv
      exact .inr hv

/-- A value stored under a new key is read back: at most one key is popped, and it is the front
of the old queue, which the new key was not in. -/
theorem get?_insert_self (hc : c.Wf) (h : c.get? k = none) : (c.insert k d).get? k = some d := by
  have hk : k ∉ c.order := (hc.get?_eq_none_iff k).1 h
  have hn : (c.order ++ [k]).length - memoCapacity ≤ c.order.length := by
    have hcap : memoCapacity = 100 := rfl
    have := hc.bounded
    simp only [List.length_append, List.length_singleton]
    omega
  rw [get?, insert_of_get?_none h, trim_values, lookup_filter_not_mem, if_neg, List.lookup_cons_self]
  rw [List.take_append_of_le_length hn]
  exact fun hmem => hk (List.mem_of_mem_take hmem)

/-- Storing under a new key keeps the queue well formed. -/
theorem Wf.insert (hc : c.Wf) (h : c.get? k = none) : (c.insert k d).Wf := by
  have hk : k ∉ c.order := (hc.get?_eq_none_iff k).1 h
  have hnodup : (c.order ++ [k]).Nodup :=
    List.nodup_append.2 ⟨hc.nodup, List.nodup_cons.2 ⟨List.not_mem_nil, List.nodup_nil⟩,
      fun a ha b hb hab => hk (by simp at hb; exact hb ▸ hab ▸ ha)⟩
  rw [insert_of_get?_none h]
  refine ⟨?_, ?_, ?_⟩
  · -- the keys left are those of the queue outside its front
    rw [trim_values, trim_order]
    have hperm : (((k, d) :: c.values).map (·.1)).Perm (c.order ++ [k]) :=
      (hc.keys.cons k).trans (List.perm_append_singleton k c.order).symm
    have hkept := hperm.filter
      (fun x => decide (x ∉ (c.order ++ [k]).take ((c.order ++ [k]).length - memoCapacity)))
    rw [List.filter_map, filter_not_mem_take hnodup] at hkept
    exact hkept
  · rw [trim_order]
    exact hnodup.sublist (List.drop_sublist _ _)
  · rw [trim_order, List.length_drop]
    omega

end Insert

end DpiCache

namespace DpiCalculator

variable {c : DpiCalculator} {t : Page.Target} {p : Page.Size} {q : Float}

theorem thumbnailDpi_of_empty (h : (t.isEmpty || p.isEmpty) = true) : c.thumbnailDpi t p q = (72, c) := by
  simp [thumbnailDpi, h]

theorem thumbnailDpi_of_stored (h : (t.isEmpty || p.isEmpty) = false) {v : Float}
    (hk : c.cache.get? (keyOf t p q) = some v) : c.thumbnailDpi t p q = (v, c) := by
  simp [thumbnailDpi, h, hk]

theorem thumbnailDpi_of_new (h : (t.isEmpty || p.isEmpty) = false) (hk : c.cache.get? (keyOf t p q) = none) :
    c.thumbnailDpi t p q =
      (formula c.ratio t p q, { c with cache := c.cache.insert (keyOf t p q) (formula c.ratio t p q) }) := by
  simp [thumbnailDpi, h, hk]

/-- **A repeated call is answered from the memo**: the calculator a call leaves gives the same
call the same DPI and stays as it is. -/
theorem thumbnailDpi_again (hc : c.cache.Wf) {v : Float} {c' : DpiCalculator} (h : c.thumbnailDpi t p q = (v, c')) :
    c'.thumbnailDpi t p q = (v, c') := by
  cases hv : (t.isEmpty || p.isEmpty)
  · rcases hk : c.cache.get? (keyOf t p q) with _ | v₀
    · -- a new key: the value just stored is found under it
      rw [thumbnailDpi_of_new hv hk, Prod.mk.injEq] at h
      obtain ⟨rfl, rfl⟩ := h
      exact thumbnailDpi_of_stored hv (DpiCache.get?_insert_self hc hk)
    · rw [thumbnailDpi_of_stored hv hk, Prod.mk.injEq] at h
      obtain ⟨rfl, rfl⟩ := h
      exact thumbnailDpi_of_stored hv hk
  · rw [thumbnailDpi_of_empty hv, Prod.mk.injEq] at h
    obtain ⟨rfl, rfl⟩ := h
    exact thumbnailDpi_of_empty hv

/-- A new ratio leaves the calculator as it was, or empties the memo. -/
theorem setRatio_eq_or (c : DpiCalculator) (r : Float) : c.setRatio r = c ∨ (c.setRatio r).cache = {} := by
  simp only [setRatio]
  split
  · exact .inl rfl
  · exact .inr rfl

/-- A ratio that changes empties the memo. -/
theorem setRatio_cache (c : DpiCalculator) (r : Float) (h : (c.setRatio r).ratio ≠ c.ratio) :
    (c.setRatio r).cache = {} := by
  rcases c.setRatio_eq_or r with hsame | hempty
  · rw [hsame] at h
    exact absurd rfl h
  · exact hempty

end DpiCalculator

/-- A call made of the calculator. -/
inductive DpiOp where
  | thumbnail (t : Page.Target) (p : Page.Size) (quality : Float)
  | setRatio (ratio : Float)
  | clear

/-- The calculator after one call. -/
def DpiOp.step (c : DpiCalculator) : DpiOp → DpiCalculator
  | .thumbnail t p q => (c.thumbnailDpi t p q).2
  | .setRatio r => c.setRatio r
  | .clear => c.clear

/-- The calculator after a session's calls. -/
def DpiCalculator.run (c : DpiCalculator) (ops : List DpiOp) : DpiCalculator := ops.foldl DpiOp.step c

namespace DpiCalculator

/-- What the memo holds after the calls `ops`: a well formed queue, and values that are each the
formula, at the present ratio, for an earlier call with their key. -/
structure Memoised (ops : List DpiOp) (c : DpiCalculator) : Prop where
  wf : c.cache.Wf
  stored : ∀ k v, c.cache.get? k = some v → ∃ t p q, DpiOp.thumbnail t p q ∈ ops ∧
    (t.isEmpty || p.isEmpty) = false ∧ keyOf t p q = k ∧ v = formula c.ratio t p q

theorem memoised_empty (ops : List DpiOp) (c : DpiCalculator) (h : c.cache = {}) : Memoised ops c :=
  ⟨h ▸ DpiCache.wf_empty, fun k v hv => by rw [h, DpiCache.get?_empty] at hv; cases hv⟩

theorem memoised_create (ratio : Float) : Memoised [] (create ratio) :=
  memoised_empty [] _ rfl

theorem Memoised.mono {ops ops' : List DpiOp} {c : DpiCalculator} (h : Memoised ops c) (hsub : ops ⊆ ops') :
    Memoised ops' c := by
  refine ⟨h.wf, fun k v hv => ?_⟩
  obtain ⟨t, p, q, hmem, hne, hk, hval⟩ := h.stored k v hv
  exact ⟨t, p, q, hsub hmem, hne, hk, hval⟩

/-- **One call keeps the memo sound**: a stored key or an empty box changes nothing, a new key
stores the formula at the ratio the memo was made at, and a ratio that changes empties it. -/
theorem Memoised.step {ops : List DpiOp} {c : DpiCalculator} (h : Memoised ops c) (op : DpiOp) :
    Memoised (ops ++ [op]) (op.step c) := by
  have hsub : ops ⊆ ops ++ [op] := List.subset_append_left _ _
  cases op with
  | thumbnail t p q =>
    cases hv : (t.isEmpty || p.isEmpty)
    · rcases hk : c.cache.get? (keyOf t p q) with _ | v
      · rw [DpiOp.step, thumbnailDpi_of_new hv hk]
        refine ⟨h.wf.insert hk, fun k' v' hv' => ?_⟩
        rcases DpiCache.get?_insert_eq_some hk hv' with ⟨rfl, rfl⟩ | hold
        · exact ⟨t, p, q, by simp, hv, rfl, rfl⟩
        · exact (h.mono hsub).stored k' v' hold
      · rw [DpiOp.step, thumbnailDpi_of_stored hv hk]
        exact h.mono hsub
    · rw [DpiOp.step, thumbnailDpi_of_empty hv]
      exact h.mono hsub
  | setRatio r =>
    show Memoised _ (c.setRatio r)
    rcases c.setRatio_eq_or r with hsame | hempty
    · rw [hsame]
      exact h.mono hsub
    · exact memoised_empty _ _ hempty
  | clear => exact memoised_empty _ _ rfl

/-- Every calculator a session reaches holds a sound memo. -/
theorem Memoised.run {hist : List DpiOp} {c : DpiCalculator} (h : Memoised hist c) (ops : List DpiOp) :
    Memoised (hist ++ ops) (c.run ops) := by
  induction ops generalizing hist c with
  | nil => simpa [DpiCalculator.run] using h
  | cons op ops ih =>
    have := ih (h.step op)
    rwa [List.append_assoc, List.singleton_append] at this

/-! ### Main statement -/

/-- What the calls `ops` leave in a calculator, and how it answers the next call. -/
structure MemoLaws (ops : List DpiOp) (c : DpiCalculator) : Prop where
  /-- The queue holds the stored keys, each once, and no more than `memoCapacity` of them. -/
  queue : c.cache.Wf
  /-- Each value is the formula, at the present ratio, for an earlier call with its key. -/
  stored : ∀ k v, c.cache.get? k = some v → ∃ t p q, DpiOp.thumbnail t p q ∈ ops ∧
    (t.isEmpty || p.isEmpty) = false ∧ keyOf t p q = k ∧ v = formula c.ratio t p q
  /-- An empty box or page gives 72 and leaves the memo alone. -/
  empty : ∀ t p q, (t.isEmpty || p.isEmpty) = true → c.thumbnailDpi t p q = (72, c)
  /-- A call answers with the formula for its own arguments when its key is new, and otherwise,
  changing nothing, with the formula for an earlier call with its key; both at the present ratio. -/
  answer : ∀ t p q, (t.isEmpty || p.isEmpty) = false →
    (c.cache.get? (keyOf t p q) = none ∧ (c.thumbnailDpi t p q).1 = formula c.ratio t p q) ∨
    ∃ t' p' q', DpiOp.thumbnail t' p' q' ∈ ops ∧ (t'.isEmpty || p'.isEmpty) = false ∧
      keyOf t' p' q' = keyOf t p q ∧ c.thumbnailDpi t p q = (formula c.ratio t' p' q', c)
  /-- A new key joins the back of the queue, and the keys stored first leave its front while it
  is too long. -/
  fifo : ∀ t p q, (t.isEmpty || p.isEmpty) = false → c.cache.get? (keyOf t p q) = none →
    (c.thumbnailDpi t p q).2.cache.order =
      (c.cache.order ++ [keyOf t p q]).drop (c.cache.order.length + 1 - memoCapacity)
  /-- A ratio that changes empties the memo. -/
  newRatio : ∀ r, (c.setRatio r).ratio ≠ c.ratio → (c.setRatio r).cache = {}

/-- **The DPI memo stays sound over every session**: its queue and its values stay in step, it
forgets the keys stored first, and every answer is the formula at the present ratio, for the
call's own arguments or for an earlier call with the same key. -/
theorem dpi_memo_stays_sound (ratio : Float) (ops : List DpiOp) : MemoLaws ops ((create ratio).run ops) := by
  have h : Memoised ops ((create ratio).run ops) := by
    simpa using (memoised_create ratio).run ops
  refine ⟨h.wf, h.stored, fun _ _ _ hv => thumbnailDpi_of_empty hv, fun t p q hv => ?_, fun t p q hv hk => ?_,
    fun r hr => setRatio_cache _ r hr⟩
  · -- a stored key answers with the value an earlier call stored
    rcases hk : ((create ratio).run ops).cache.get? (keyOf t p q) with _ | v
    · exact .inl ⟨rfl, by rw [thumbnailDpi_of_new hv hk]⟩
    · obtain ⟨t', p', q', hmem, hv', hkey, rfl⟩ := h.stored _ v hk
      exact .inr ⟨t', p', q', hmem, hv', hkey, thumbnailDpi_of_stored hv hk⟩
  · rw [thumbnailDpi_of_new hv hk]
    exact DpiCache.insert_order hk

end DpiCalculator

end Render
end Thumbnailer

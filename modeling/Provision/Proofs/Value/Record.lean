import Provision.Proofs.Value.Entries

namespace Provision.Entries

variable {es fs extra : Entries} {names : List String} {fields : List (String × Value)}

def Apart (names : List String) (es : Entries) : Prop :=
  ∀ e ∈ es, ∀ n ∈ names, e.1 ≠ .text n

def Distinct (es : Entries) : Prop := es.keys.Pairwise fun k l => l.same k = false

/-- The mapping that entries make: of those with one key, the first place and the last value. -/
def merged (es : Entries) : Entries := update [] es

def ofFields (fields : List (String × Value)) : Entries := fields.map fun f => (.text f.1, f.2)

theorem elem_keys_eq_false_iff {k : Value} :
    k.elem es.keys = false ↔ ∀ e ∈ es, k.same e.1 = false := by
  simp [Value.elem, keys]

theorem put_append {k v : Value} (h : k.elem es.keys = false) :
    put (es ++ fs) k v = es ++ put fs k v := by
  rw [elem_keys_eq_false_iff] at h
  induction es with
  | nil => rfl
  | cons e es ih =>
      obtain ⟨l, w⟩ := e
      rw [List.forall_mem_cons] at h
      rw [List.cons_append, put, h.1, if_neg (by decide), ih h.2, List.cons_append]

theorem update_append {gs : Entries} (h : ∀ g ∈ gs, g.1.elem es.keys = false) :
    update (es ++ fs) gs = es ++ update fs gs := by
  simp only [update]
  induction gs generalizing fs with
  | nil => rfl
  | cons g gs ih =>
      rw [List.forall_mem_cons] at h
      rw [List.foldl_cons, List.foldl_cons, put_append h.1, ih h.2]

theorem keys_put {k v : Value} :
    (put es k v).keys = if k.elem es.keys then es.keys else es.keys ++ [k] := by
  induction es with
  | nil => rfl
  | cons e es ih =>
      obtain ⟨l, w⟩ := e
      rw [put]
      cases hk : k.same l with
      | true => simp [keys, Value.elem, hk]
      | false =>
          have helem : k.elem (keys ((l, w) :: es)) = k.elem (keys es) := by
            simp [keys, Value.elem, hk]
          rw [if_neg (by decide), helem, keys, List.map_cons, ← keys, ih]
          split <;> rfl

theorem distinct_put {k v : Value} (h : es.Distinct) : (put es k v).Distinct := by
  rw [Distinct, keys_put]
  split
  next => exact h
  next hk =>
    rw [Bool.not_eq_true, elem_keys_eq_false_iff] at hk
    refine List.pairwise_append.2 ⟨h, List.pairwise_singleton _ _, ?_⟩
    intro l hl k' hk'
    obtain ⟨e, he, rfl⟩ := List.mem_map.1 hl
    rw [List.mem_singleton.1 hk']
    exact hk e he

theorem distinct_update (h : es.Distinct) : (update es fs).Distinct := by
  simp only [update]
  induction fs generalizing es with
  | nil => exact h
  | cons f fs ih => exact ih (distinct_put h)

theorem distinct_merged (es : Entries) : es.merged.Distinct := distinct_update .nil

theorem update_of_distinct (h : (es ++ fs).Distinct) : update es fs = es ++ fs := by
  simp only [update]
  induction fs generalizing es with
  | nil => simp
  | cons f fs ih =>
      have hfresh : f.1.elem es.keys = false := by
        rw [elem_keys_eq_false_iff]
        intro e he
        rw [Distinct, keys, List.map_append, List.pairwise_append] at h
        exact h.2.2 e.1 (List.mem_map_of_mem he) f.1 (by simp)
      have hput : put es f.1 f.2 = es ++ [f] := by
        simpa [put] using (put_append hfresh : put (es ++ []) f.1 f.2 = es ++ put [] f.1 f.2)
      rw [List.foldl_cons, hput, ih (by simpa using h), List.append_assoc]
      rfl

theorem merged_of_distinct (h : es.Distinct) : es.merged = es := update_of_distinct h

theorem merged_merged (es : Entries) : es.merged.merged = es.merged :=
  merged_of_distinct (distinct_merged es)

theorem apart_iff_keys : es.Apart names ↔ ∀ k ∈ es.keys, ∀ n ∈ names, k ≠ .text n := by
  simp [Apart, keys]

theorem apart_put {k v : Value} (h : es.Apart names) (hk : ∀ n ∈ names, k ≠ .text n) :
    (put es k v).Apart names := by
  rw [apart_iff_keys] at h ⊢
  rw [keys_put]
  split
  next => exact h
  next => exact List.forall_mem_append.2 ⟨h, by simpa using hk⟩

theorem apart_update (h : es.Apart names) (hfs : fs.Apart names) :
    (update es fs).Apart names := by
  simp only [update]
  induction fs generalizing es with
  | nil => exact h
  | cons f fs ih =>
      rw [Apart, List.forall_mem_cons] at hfs
      exact ih (apart_put h hfs.1) hfs.2

theorem apart_merged (h : es.Apart names) : es.merged.Apart names := apart_update (by simp [Apart]) h

theorem apart_without (es : Entries) (names : List String) : (without es names).Apart names :=
  fun e he _ hn => ne_of_mem_without hn e he

theorem without_of_apart (h : es.Apart names) : without es names = es := by
  refine List.filter_eq_self.2 fun e he => ?_
  rw [Bool.not_eq_true', List.any_eq_false]
  exact fun n hn hsame => h e he n hn (Value.same_text_iff.1 hsame)

theorem without_ofFields (h : ∀ f ∈ fields, f.1 ∈ names) : without (ofFields fields) names = [] := by
  refine List.filter_eq_nil_iff.2 fun e he hkeep => ?_
  obtain ⟨f, hf, rfl⟩ := List.mem_map.1 he
  rw [Bool.not_eq_true', List.any_eq_false] at hkeep
  exact hkeep f.1 (h f hf) (Value.same_text_iff.2 rfl)

/-- The extra entries of a record follow its fields. -/
theorem withExtra_eq_append (hfields : ∀ f ∈ fields, f.1 ∈ names) (hextra : extra.Apart names) :
    withExtra fields extra = ofFields fields ++ extra.merged := by
  have hfresh : ∀ e ∈ extra, e.1.elem (ofFields fields).keys = false := by
    intro e he
    rw [elem_keys_eq_false_iff]
    intro g hg
    obtain ⟨f, hf, rfl⟩ := List.mem_map.1 hg
    rw [Bool.eq_false_iff]
    exact fun hsame => hextra e he f.1 (hfields f hf) (Value.same_text_right_iff.1 hsame)
  have happend : update (ofFields fields ++ []) extra = ofFields fields ++ extra.merged :=
    update_append hfresh
  rwa [List.append_nil] at happend

theorem without_withExtra (hfields : ∀ f ∈ fields, f.1 ∈ names) (hextra : extra.Apart names) :
    without (withExtra fields extra) names = extra.merged := by
  rw [withExtra_eq_append hfields hextra, without, List.filter_append, ← without, ← without,
    without_ofFields hfields, without_of_apart (apart_merged hextra), List.nil_append]

theorem withExtra_merged (hfields : ∀ f ∈ fields, f.1 ∈ names) (hextra : extra.Apart names) :
    withExtra fields extra.merged = withExtra fields extra := by
  rw [withExtra_eq_append hfields (apart_merged hextra), merged_merged,
    withExtra_eq_append hfields hextra]

theorem get?_withExtra_of_apart (hextra : extra.Apart names) {k : String} (hk : k ∈ names) :
    get? (withExtra fields extra) (.text k) = fields.lookup k := by
  rw [withExtra, get?_update fun e he => hextra e he k hk, get?_map_text]

theorem get_withExtra (hextra : extra.Apart names) {k : String} (hk : k ∈ names) :
    get (withExtra fields extra) k = (fields.lookup k).getD .null := by
  rw [get, get?_withExtra_of_apart hextra hk]

theorem get_ofFields {k : String} : get (ofFields fields) k = (fields.lookup k).getD .null := by
  rw [get, ofFields, get?_map_text]

theorem mem_withExtra_iff (hfields : ∀ f ∈ fields, f.1 ∈ names) (hextra : extra.Apart names)
    {k : String} (hk : k ∈ names) {v : Value} :
    (.text k, v) ∈ withExtra fields extra ↔ (k, v) ∈ fields := by
  rw [withExtra_eq_append hfields hextra, List.mem_append, ofFields, List.mem_map]
  constructor
  · rintro (⟨f, hf, he⟩ | hmem)
    · cases he
      exact hf
    · exact absurd rfl (apart_merged hextra _ hmem k hk)
  · exact fun h => .inl ⟨_, h, rfl⟩

end Provision.Entries

import Mathlib.Data.List.Nodup
import Steward.Toml.Document

/-!
# The keys of a document

No key of a document that was read is given twice. A reader makes the document by steps that each put
an entry at the end or in the place of one with its key, so no step can make keys equal.
-/

set_option autoImplicit false

namespace Steward.Toml

/-! ## Entries -/

namespace Entries

variable {key : String} {es : Entries}

theorem not_mem_of_nodup {keys : List String} (h : (es.map Prod.fst ++ key :: keys).Nodup) :
    key ∉ es.map Prod.fst := by
  intro hmem
  exact (List.nodup_append.1 h).2.2 key hmem key List.mem_cons_self rfl

theorem get?_of_not_mem (h : key ∉ es.map Prod.fst) : es.get? key = none := by
  rw [get?, List.lookup_eq_none_iff]
  intro e he
  rw [bne_iff_ne]
  rintro rfl
  exact h (List.mem_map_of_mem he)

theorem get?_last (h : key ∉ es.map Prod.fst) (v : Value) : get? key (es ++ [(key, v)]) = some v := by
  have hnone := get?_of_not_mem h
  rw [get?] at hnone ⊢
  rw [List.lookup_append, hnone]
  simp

theorem put_append (h : key ∉ es.map Prod.fst) (v : Value) (es' : Entries) :
    put key v (es ++ es') = es ++ put key v es' := by
  induction es with
  | nil => rfl
  | cons e es ih =>
    simp only [List.map_cons, List.mem_cons, not_or] at h
    have hne : ¬ e.1 = key := fun heq => h.1 heq.symm
    simp [put, hne, ih h.2]

theorem put_of_not_mem (h : key ∉ es.map Prod.fst) (v : Value) : es.put key v = es ++ [(key, v)] := by
  simpa [put] using put_append h v []

theorem put_last (h : key ∉ es.map Prod.fst) (v w : Value) :
    put key v (es ++ [(key, w)]) = es ++ [(key, v)] := by
  simp [put_append h, put]

theorem keys_put (key : String) (v : Value) (es : Entries) :
    (es.put key v).map Prod.fst =
      if key ∈ es.map Prod.fst then es.map Prod.fst else es.map Prod.fst ++ [key] := by
  induction es with
  | nil => simp [put]
  | cons e es ih =>
    obtain ⟨k, w⟩ := e
    by_cases hk : k = key
    · simp [put, hk]
    · have hk' : ¬ key = k := fun h => hk h.symm
      simp only [put, beq_iff_eq, hk, if_false, List.map_cons, ih, List.mem_cons, hk', false_or]
      split <;> rfl

end Entries

/-! ## Documents have distinct keys -/

def Distinct (es : Entries) : Prop := (es.map Prod.fst).Nodup

theorem Distinct.put {es : Entries} (h : Distinct es) (key : String) (v : Value) :
    Distinct (es.put key v) := by
  unfold Distinct at h ⊢
  rw [Entries.keys_put]
  split
  · exact h
  · rename_i hk
    refine List.nodup_append.2 ⟨h, by simp, ?_⟩
    intro k hmem k' hk'
    rw [List.mem_singleton] at hk'
    intro heq
    exact hk (hk' ▸ heq ▸ hmem)

/-- What is done to one table of a document leaves the keys of the document distinct, if it does so
for the document itself. -/
theorem Distinct.descend {dotted : Bool} {change : TableKind → Entries → Option (TableKind × Entries)}
    (hc : ∀ k es k' es', change k es = some (k', es') → Distinct es → Distinct es')
    {path : List String} {kind kind' : TableKind} {es es' : Entries}
    (h : Toml.descend dotted change path kind es = some (kind', es')) (hd : Distinct es) :
    Distinct es' := by
  cases path with
  | nil => exact hc kind es kind' es' h hd
  | cons key path =>
    simp only [Toml.descend] at h
    split at h
    · split at h
      · cases h
        exact hd.put key _
      · exact nomatch h
    · split at h
      · exact nomatch h
      · split at h
        · cases h
          exact hd.put key _
        · exact nomatch h
    · split at h
      · split at h
        · cases h
          exact hd.put key _
        · exact nomatch h
      · exact nomatch h
    · exact nomatch h

theorem Distinct.setEntry {parts : List String} {v : Value} {kind kind' : TableKind}
    {es es' : Entries} (h : Toml.setEntry parts v kind es = some (kind', es')) (hd : Distinct es) :
    Distinct es' := by
  unfold Toml.setEntry at h
  split at h
  · exact nomatch h
  · rename_i key _
    refine Distinct.descend ?_ h hd
    intro k fs k' fs' hset hfs
    split at hset
    · exact nomatch hset
    · split at hset
      · exact nomatch hset
      · cases hset
        exact hfs.put key v

theorem Distinct.openTable {parts : List String} {es es' : Entries}
    (h : Toml.openTable parts es = some es') (hd : Distinct es) : Distinct es' := by
  unfold Toml.openTable at h
  split at h
  · exact nomatch h
  · rename_i key _
    obtain ⟨⟨k, fs⟩, hdesc, rfl⟩ := Option.map_eq_some_iff.1 h
    refine Distinct.descend ?_ hdesc hd
    intro k gs k' gs' hopen hgs
    split at hopen
    · cases hopen
      exact hgs.put key _
    · cases hopen
      exact hgs.put key _
    · exact nomatch hopen

theorem Distinct.appendTable {parts : List String} {es es' : Entries}
    (h : Toml.appendTable parts es = some es') (hd : Distinct es) : Distinct es' := by
  unfold Toml.appendTable at h
  split at h
  · exact nomatch h
  · rename_i key _
    obtain ⟨⟨k, fs⟩, hdesc, rfl⟩ := Option.map_eq_some_iff.1 h
    refine Distinct.descend ?_ hdesc hd
    intro k gs k' gs' happend hgs
    split at happend
    · cases happend
      exact hgs.put key _
    · cases happend
      exact hgs.put key _
    · exact nomatch happend

namespace State

/-- A move of the reader that leaves the keys of the document distinct. -/
def Keeps (s : State) (r : Option State) : Prop :=
  ∀ s', r = some s' → Distinct s.root → Distinct s'.root

theorem keeps_none (s : State) : s.Keeps none := by
  intro s' h
  exact nomatch h

theorem keeps_some {s s' : State} (h : s'.root = s.root) : s.Keeps (some s') := by
  intro t ht hd
  cases ht
  rw [h]
  exact hd

theorem keeps_assign (s : State) (parts : List String) (v : Value) : s.Keeps (s.assign parts v) := by
  intro s' h hd
  unfold assign at h
  split at h
  · rename_i hdesc
    cases h
    exact Distinct.descend (fun _ _ _ _ hset hfs => hfs.setEntry hset) hdesc hd
  · exact nomatch h

theorem keeps_deliver (s : State) (v : Value) : s.Keeps (s.deliver v) := by
  unfold deliver
  split
  · exact keeps_none s
  · exact keeps_assign s _ v
  · exact keeps_some rfl
  · split
    · exact keeps_some rfl
    · exact keeps_none s

theorem keeps_closeArray (s : State) : s.Keeps s.closeArray := by
  unfold closeArray
  split
  · exact keeps_deliver { s with frames := _ } _
  · exact keeps_none s

theorem keeps_closeInline (s : State) : s.Keeps s.closeInline := by
  unfold closeInline
  split
  · exact keeps_deliver { s with frames := _ } _
  · exact keeps_none s

theorem keeps_beginEntry (s : State) (parts : List String) : s.Keeps (s.beginEntry parts) := by
  unfold beginEntry
  split
  · exact keeps_some rfl
  · exact keeps_some rfl
  · exact keeps_none s

theorem keeps_beginTable (s : State) (array : Bool) (parts : List String) :
    s.Keeps (s.beginTable array parts) := by
  intro s' h hd
  unfold beginTable at h
  split at h
  · rename_i root hroot
    cases h
    cases array with
    | true => exact hd.appendTable hroot
    | false => exact hd.openTable hroot
  · exact nomatch h

theorem keeps_pushKey (s : State) (use : KeyUse) (parts : List String) (t : Token) :
    s.Keeps (s.pushKey use parts t) := by
  unfold pushKey
  split
  · split
    · exact keeps_some rfl
    · exact keeps_none s
  · exact keeps_none s

theorem keeps_endScalar (s : State) (chars : List Char) : s.Keeps (s.endScalar chars) := by
  unfold endScalar
  split
  · exact keeps_deliver s _
  · exact keeps_none s

theorem keeps_enter (s : State) (f : Frame) (phase : Phase) : s.Keeps (s.enter f phase) := by
  unfold enter
  split
  · exact keeps_some rfl
  · exact keeps_none s

theorem keeps_beginValue (s : State) (t : Token) : s.Keeps (s.beginValue t) := by
  unfold beginValue
  split
  · exact keeps_some rfl
  · exact keeps_some rfl
  · exact keeps_deliver s _
  · exact keeps_enter s _ _
  · exact keeps_enter s _ _
  · exact keeps_none s

theorem keeps_afterValue (s : State) (t : Token) : s.Keeps (s.afterValue t) := by
  unfold afterValue
  split
  · exact keeps_some rfl
  · exact keeps_some rfl
  · exact keeps_some rfl
  · exact keeps_some rfl
  · split
    · exact keeps_some rfl
    · exact keeps_some rfl
    · exact keeps_none s
  · exact keeps_closeArray s
  · exact keeps_closeInline s
  · exact keeps_none s

theorem keeps_endScalar_afterValue (s : State) (chars : List Char) (t : Token) :
    s.Keeps ((s.endScalar chars).bind (·.afterValue t)) := by
  intro s' h hd
  obtain ⟨s₁, h₁, h₂⟩ := Option.bind_eq_some_iff.1 h
  exact keeps_afterValue s₁ t s' h₂ (keeps_endScalar s chars s₁ h₁ hd)

theorem keeps_step (s : State) (t : Token) : s.Keeps (s.step t) := by
  unfold step
  cases s.phase with
  | lineStart =>
    dsimp only
    split
    · exact keeps_some rfl
    · exact keeps_some rfl
    · exact keeps_some rfl
    · exact keeps_pushKey s _ _ _
  | headerOpen =>
    dsimp only
    split
    · exact keeps_some rfl
    · exact keeps_some rfl
    · exact keeps_pushKey s _ _ _
  | keyPart use parts =>
    dsimp only
    split
    · exact keeps_some rfl
    · exact keeps_pushKey s _ _ _
  | keyNext use parts =>
    dsimp only
    split
    · exact keeps_some rfl
    · exact keeps_some rfl
    · split
      · exact keeps_beginEntry s _
      · exact keeps_none s
    · split
      · exact keeps_some rfl
      · exact keeps_beginTable s false _
      · exact keeps_none s
    · exact keeps_none s
  | headerShut parts =>
    dsimp only
    split
    · exact keeps_beginTable s true _
    · exact keeps_none s
  | value =>
    dsimp only
    split
    · exact keeps_some rfl
    · exact keeps_some rfl
    · exact keeps_closeArray s
    · exact keeps_beginValue s _
  | scalar chars =>
    dsimp only
    split
    · exact keeps_some rfl
    · exact keeps_some rfl
    · exact keeps_some rfl
    · exact keeps_endScalar_afterValue s _ _
  | scalarGap chars =>
    dsimp only
    split
    · exact keeps_some rfl
    · exact keeps_endScalar_afterValue s _ _
  | separator => exact keeps_afterValue s t
  | keyOrEnd =>
    dsimp only
    split
    · exact keeps_some rfl
    · exact keeps_some rfl
    · exact keeps_closeInline s
    · exact keeps_pushKey s _ _ _
  | lineEnd => exact keeps_afterValue s t

theorem distinct_run {s s' : State} {ts : List Token} (h : s.run ts = some s')
    (hd : Distinct s.root) : Distinct s'.root := by
  induction ts generalizing s with
  | nil =>
    cases h
    exact hd
  | cons t ts ih =>
    rw [run] at h
    split at h
    · rename_i s₁ hstep
      exact ih h (keeps_step s t s₁ hstep hd)
    · exact nomatch h

end State

theorem distinct_ofTokens? {tokens : List Token} {es : Entries} (h : ofTokens? tokens = some es) :
    Distinct es := by
  unfold ofTokens? at h
  split at h
  · rename_i hrun
    cases h
    exact State.distinct_run hrun List.nodup_nil
  · exact nomatch h

theorem distinct_parse {cs : List Char} {es : Entries} (h : parse cs = some es) : Distinct es := by
  obtain ⟨tokens, -, htokens⟩ := Option.bind_eq_some_iff.1 h
  exact distinct_ofTokens? htokens

end Steward.Toml

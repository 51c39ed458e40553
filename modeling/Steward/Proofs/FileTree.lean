import Mathlib.Tactic.SplitIfs
import Steward.Files

/-!
# Following paths through a changing tree

What a path leads to depends on the nodes it passes, and it passes neither files nor vacant places. So a
file or directory that is put where a file or nothing was shows at the end of the paths that lead there
and nowhere else (`walk_put`). Making directories disturbs no file, and a file that is open for
writing stays where it is however often it is written to.
-/

set_option autoImplicit false

namespace Steward

def Spot.place : Spot → Place
  | .found p _ => p
  | .vacant p => p

/-- What a path leads to once `n` is put at `p`. -/
def Spot.fill (p : Place) (n : Node) (s : Spot) : Spot := if s.place = p then .found p n else s

def Node.isLink : Node → Bool
  | .link _ => true
  | _ => false

namespace Files

/-! ## Nodes -/

theorem lookup_filter {α β : Type} [BEq α] [LawfulBEq α] (l : List (α × β)) {p q : α} (h : q ≠ p) :
    (l.filter (·.1 != p)).lookup q = l.lookup q := by
  induction l with
  | nil => rfl
  | cons x l ih =>
    obtain ⟨a, b⟩ := x
    by_cases ha : a = p
    · subst ha
      have hq : (q == a) = false := by simpa using h
      simp [List.lookup_cons, hq, ih]
    · rw [List.filter_cons_of_pos (by simpa using ha)]
      simp only [List.lookup_cons]
      rw [ih]

theorem node?_put_self (fs : Files) {p : Place} (hp : p ≠ []) (n : Node) :
    (fs.put p n).node? p = some n := by
  simp [node?, put, hp]

theorem node?_put_other (fs : Files) {p q : Place} (h : q ≠ p) (n : Node) :
    (fs.put p n).node? q = fs.node? q := by
  have hq : (q == p) = false := by simpa using h
  simp only [node?, put, List.lookup_cons, hq]
  rw [lookup_filter _ h]

/-- Whether no path goes on from a place: nothing is there, or a file. -/
def isEnd (fs : Files) (p : Place) : Bool := (fs.node? p).all (·.isFile)

theorem ne_nil_of_isEnd {fs : Files} {p : Place} (h : fs.isEnd p = true) : p ≠ [] := by
  intro hp
  subst hp
  exact nomatch h

/-! ## Paths -/

/-- A path goes on only from a directory. -/
theorem exists_directory_of_walk {fs : Files} {follow : Bool} {steps links : Nat} {here : Place} {name : String}
    {rest : List String} {s : Spot} (h : fs.walk follow (steps + 1) links here (name :: rest) = .ok s) :
    ∃ mode, fs.node? here = some (.directory mode) := by
  rw [walk] at h
  cases hnode : fs.node? here with
  | none => simp [hnode] at h
  | some m =>
    cases m with
    | directory mode => exact ⟨mode, rfl⟩
    | file bytes mode => simp [hnode] at h
    | link target => simp [hnode] at h

theorem walk_of_isEnd {fs : Files} {p : Place} (h : fs.isEnd p = true) (follow : Bool) (steps links : Nat)
    (name : String) (rest : List String) (s : Spot) :
    fs.walk follow (steps + 1) links p (name :: rest) ≠ .ok s := by
  intro hwalk
  obtain ⟨mode, hnode⟩ := exists_directory_of_walk hwalk
  rw [isEnd, hnode] at h
  cases h

theorem walk_put {fs : Files} {p : Place} (hp : fs.isEnd p = true) {n : Node} (hn : n.isLink = false)
    (follow : Bool) {steps : Nat} :
    ∀ {links : Nat} {here : Place} {names : List String} {s : Spot},
      fs.walk follow steps links here names = .ok s →
      (fs.put p n).walk follow steps links here names = .ok (s.fill p n) := by
  induction steps with
  | zero => intro links here names s h; exact nomatch h
  | succ steps ih =>
    intro links here names s h
    by_cases hhere : here = p
    · subst hhere
      cases names with
      | nil =>
        rw [walk, node?_put_self fs (ne_nil_of_isEnd hp)]
        rw [walk] at h
        cases hnode : fs.node? here <;> rw [hnode] at h <;> injection h with h <;> subst h <;>
          simp [Spot.fill, Spot.place]
      | cons name rest => exact absurd h (walk_of_isEnd hp follow steps links name rest s)
    cases names with
    | nil =>
      rw [walk, node?_put_other fs hhere]
      rw [walk] at h
      cases hnode : fs.node? here <;> rw [hnode] at h <;> injection h with h <;> subst h <;>
        simp [Spot.fill, Spot.place, hhere]
    | cons name rest =>
      obtain ⟨mode, hnode⟩ := exists_directory_of_walk h
      rw [walk] at h
      rw [walk, node?_put_other fs hhere]
      simp only [hnode] at h ⊢
      by_cases hdot : (name == ".") = true
      · rw [if_pos hdot] at h ⊢
        exact ih h
      by_cases hup : (name == "..") = true
      · rw [if_neg hdot, if_pos hup] at h ⊢
        exact ih h
      rw [if_neg hdot, if_neg hup] at h ⊢
      by_cases hthere : here ++ [name] = p
      · -- the path ends there, before and after
        rw [hthere] at h ⊢
        rw [node?_put_self fs (ne_nil_of_isEnd hp)]
        have hbefore : fs.walk follow steps links p rest = .ok s := by
          unfold isEnd at hp
          cases hq : fs.node? p with
          | none => simpa [hq] using h
          | some m' => cases m' <;> simp_all [Node.isFile]
        cases n with
        | link target => exact nomatch hn
        | file bytes mode => exact ih hbefore
        | directory mode => exact ih hbefore
      · rw [node?_put_other fs hthere]
        cases hq : fs.node? (here ++ [name]) with
        | none =>
          simp only [hq] at h ⊢
          exact ih h
        | some m' =>
          cases m' with
          | file bytes mode =>
            simp only [hq] at h ⊢
            exact ih h
          | directory mode =>
            simp only [hq] at h ⊢
            exact ih h
          | link target =>
            simp only [hq] at h ⊢
            by_cases hlast : (rest.isEmpty && !follow) = true
            · rw [if_pos hlast] at h ⊢
              injection h with h
              subst h
              simp [Spot.fill, Spot.place, hthere]
            · rw [if_neg hlast] at h ⊢
              cases links with
              | zero => exact nomatch h
              | succ links => exact ih h

theorem node?_of_walk {fs : Files} {follow : Bool} {steps : Nat} :
    ∀ {links : Nat} {here : Place} {names : List String} {s : Spot},
      fs.walk follow steps links here names = .ok s →
      (∀ p n, s = .found p n → fs.node? p = some n) ∧ ∀ p, s = .vacant p → fs.node? p = none := by
  induction steps with
  | zero => intro links here names s h; exact nomatch h
  | succ steps ih =>
    intro links here names s h
    cases names with
    | nil =>
      rw [walk] at h
      cases hnode : fs.node? here <;> rw [hnode] at h <;> injection h with h <;> subst h <;>
        simp [hnode]
    | cons name rest =>
      obtain ⟨mode, hnode⟩ := exists_directory_of_walk h
      rw [walk] at h
      simp only [hnode] at h
      split at h
      · exact ih h
      split at h
      · exact ih h
      split at h
      · rename_i hlink
        split at h
        · injection h with h
          subst h
          simp [hlink]
        · split at h
          · exact nomatch h
          · exact ih h
      · exact ih h

theorem node?_of_found {fs : Files} {follow : Bool} {path : String} {p : Place} {n : Node}
    (h : fs.resolve follow path = .ok (.found p n)) : fs.node? p = some n := by
  unfold resolve at h
  split at h
  · exact nomatch h
  · exact (node?_of_walk h).1 p n rfl

theorem node?_of_vacant {fs : Files} {follow : Bool} {path : String} {p : Place}
    (h : fs.resolve follow path = .ok (.vacant p)) : fs.node? p = none := by
  unfold resolve at h
  split at h
  · exact nomatch h
  · exact (node?_of_walk h).2 p rfl

theorem resolve_put {fs : Files} {p : Place} (hp : fs.isEnd p = true) {n : Node} (hn : n.isLink = false)
    {follow : Bool} {path : String} {s : Spot} (h : fs.resolve follow path = .ok s) :
    (fs.put p n).resolve follow path = .ok (s.fill p n) := by
  unfold resolve at h ⊢
  split at h
  · exact nomatch h
  · rename_i hpath
    rw [if_neg hpath]
    exact walk_put hp hn follow h

/-! ## Files -/

/-- A path leads to a file at `place` that holds `bytes`. -/
def Holds (fs : Files) (path : String) (place : Place) (bytes : Text.Utf8.Bytes) : Prop :=
  ∃ mode, fs.resolve true path = .ok (.found place (.file bytes mode))

theorem Holds.read {fs : Files} {path : String} {place : Place} {bytes : Text.Utf8.Bytes}
    (h : fs.Holds path place bytes) : fs.read path = .ok bytes := by
  obtain ⟨mode, hm⟩ := h
  rw [Files.read, hm]

theorem Holds.exists {fs : Files} {path : String} {place : Place} {bytes : Text.Utf8.Bytes}
    (h : fs.Holds path place bytes) : fs.exists? path = true := by
  obtain ⟨mode, hm⟩ := h
  rw [exists?, at?, hm]
  rfl

theorem holds_of_read {fs : Files} {path : String} {bytes : Text.Utf8.Bytes}
    (h : fs.read path = .ok bytes) : ∃ place, fs.Holds path place bytes := by
  unfold Files.read at h
  split at h
  · rename_i place _ mode hr
    injection h with h
    subst h
    exact ⟨place, mode, hr⟩
  all_goals exact nomatch h

/-- A file at the end of a path stays there when its bytes change. -/
theorem Holds.change {fs : Files} {path : String} {place : Place} {bytes : Text.Utf8.Bytes}
    (h : fs.Holds path place bytes) (f : Text.Utf8.Bytes → Text.Utf8.Bytes) :
    (fs.change place f).Holds path place (f bytes) := by
  obtain ⟨mode, hm⟩ := h
  have hnode := node?_of_found hm
  have hend : fs.isEnd place = true := by
    rw [isEnd, hnode]
    rfl
  refine ⟨mode, ?_⟩
  rw [Files.change, hnode]
  simpa [Spot.fill, Spot.place] using resolve_put hend (show (Node.file (f bytes) mode).isLink = false from rfl) hm

/-- Opening keeps what a file holds, and makes an empty one where there is none. -/
theorem holds_openForWriting {fs fs' : Files} {path : String} {place : Place}
    (h : fs.openForWriting path = .ok (place, fs')) :
    (∃ bytes, fs.Holds path place bytes ∧ fs' = fs) ∨ fs.exists? path = false ∧ fs'.Holds path place [] := by
  unfold openForWriting at h
  split at h
  · rename_i place' bytes mode hr
    injection h with h
    obtain ⟨rfl, rfl⟩ := Prod.mk.inj h
    exact .inl ⟨bytes, ⟨mode, hr⟩, rfl⟩
  · exact nomatch h
  · rename_i place' hr
    split_ifs at h
    injection h with h
    obtain ⟨rfl, rfl⟩ := Prod.mk.inj h
    have hend : fs.isEnd place' = true := by
      rw [isEnd, node?_of_vacant hr]
      rfl
    refine .inr ⟨?_, defaultFileMode, ?_⟩
    · rw [exists?, at?, hr]
      rfl
    · simpa [Spot.fill, Spot.place] using resolve_put hend (show (Node.file [] defaultFileMode).isLink = false from rfl) hr
  · exact nomatch h

/-! ## Directories -/

theorem found_makeDirectory {fs fs' : Files} {path dir : String} {place : Place} {n : Node}
    (h : fs.resolve true path = .ok (.found place n)) (hd : fs.makeDirectory dir = .ok fs') :
    fs'.resolve true path = .ok (.found place n) := by
  simp only [makeDirectory] at hd
  split at hd
  · exact nomatch hd
  · rename_i vacant hv
    injection hd with hd
    subst hd
    have hnone := node?_of_vacant hv
    have hend : fs.isEnd vacant = true := by
      rw [isEnd, hnone]
      rfl
    have hne : place ≠ vacant := by
      intro e
      have := node?_of_found h
      rw [e, hnone] at this
      exact nomatch this
    simpa [Spot.fill, Spot.place, hne] using
      resolve_put hend (show (Node.directory defaultDirectoryMode).isLink = false from rfl) h
  · exact nomatch hd

theorem found_makeAll {fs fs' : Files} {path : String} {place : Place} {n : Node} {absolute : Bool}
    {parts : List String} (h : fs.resolve true path = .ok (.found place n))
    (hd : fs.makeAll absolute parts = .ok fs') : fs'.resolve true path = .ok (.found place n) := by
  induction parts generalizing fs fs' with
  | nil =>
    injection hd with hd
    subst hd
    exact h
  | cons part outer ih =>
    simp only [makeAll] at hd
    split at hd
    · rename_i made
      injection hd with hd
      subst hd
      exact found_makeDirectory h made
    · split at hd
      · exact nomatch hd
      · rename_i fs₁ houter
        have h₁ := ih h houter
        split at hd
        · rename_i made
          injection hd with hd
          subst hd
          exact found_makeDirectory h₁ made
        · split_ifs at hd
          injection hd with hd
          subst hd
          exact h₁
    · split_ifs at hd
      injection hd with hd
      subst hd
      exact h

/-- Making directories disturbs no file. -/
theorem Holds.makeDirectories {fs fs' : Files} {path dir : String} {place : Place}
    {bytes : Text.Utf8.Bytes} (h : fs.Holds path place bytes) (hd : fs.makeDirectories dir = .ok fs') :
    fs'.Holds path place bytes := by
  obtain ⟨mode, hm⟩ := h
  exact ⟨mode, found_makeAll hm hd⟩

theorem absent_of_makeDirectories {fs fs' : Files} {path dir : String}
    (hd : fs.makeDirectories dir = .ok fs') (h : fs'.exists? path = false) : fs.exists? path = false := by
  cases hr : fs.resolve true path with
  | error e => simp [exists?, at?, hr]
  | ok spot =>
    cases spot with
    | vacant place => simp [exists?, at?, hr]
    | found place n =>
      rw [exists?, at?, found_makeAll hr hd] at h
      exact nomatch h

end Files

end Steward

import JavaFront.Path
import JavaFront.Proofs.Text.Lines

/-!
# Clean paths

Cleaning a path keeps some of its names and spells them anew. Going further down
adds names to those kept and nothing else, so the paths of all entries below a
directory start with the same text.
-/

namespace JavaFront.Path

/-- The name an entry of a directory can have. -/
structure IsName (name : Bytes) : Prop where
  filled : name ≠ []
  whole : slash ∉ name
  notHere : name ≠ here
  notAbove : name ≠ above

instance (name : Bytes) : Decidable (IsName name) :=
  decidable_of_iff (name ≠ [] ∧ slash ∉ name ∧ name ≠ here ∧ name ≠ above)
    ⟨fun ⟨filled, whole, notHere, notAbove⟩ => ⟨filled, whole, notHere, notAbove⟩,
      fun ⟨filled, whole, notHere, notAbove⟩ => ⟨filled, whole, notHere, notAbove⟩⟩

variable {root name : Bytes} {parts more : List Bytes}

/-! ## The names of a path -/

theorem names_append (front behind : Bytes) :
    names (front ++ slash :: behind) = names front ++ names behind := by
  simp only [names, Bytes.splitOn_eq]
  exact List.splitOn_append_cons_self front behind

theorem names_join (whole : ∀ part ∈ parts, slash ∉ part) (filled : parts ≠ []) :
    names (Bytes.join [slash] parts) = parts :=
  Bytes.splitOn_join whole filled

theorem not_mem_of_mem_names {path : Bytes} (member : name ∈ names path) : slash ∉ name := by
  rw [names] at member
  fun_induction Bytes.splitOn slash path generalizing name with
  | case1 => simp_all
  | case2 rest ih =>
      rcases List.mem_cons.mp member with rfl | behind
      · exact List.not_mem_nil
      · exact ih behind
  | case3 byte rest different split ih =>
      obtain rfl := List.mem_singleton.mp member
      simpa [eq_comm] using different
  | case4 byte rest different piece pieces split ih =>
      rw [split, List.forall_mem_cons] at ih
      rcases List.mem_cons.mp member with rfl | behind
      · simpa [eq_comm] using ⟨different, ih.1⟩
      · exact ih.2 _ behind

/-! ## Going down -/

/-- The text that names add to the path of a directory. -/
def trail (names : List Bytes) : Bytes :=
  names.flatMap (slash :: ·)

@[simp]
theorem trail_nil : trail [] = [] :=
  rfl

@[simp]
theorem trail_cons (name : Bytes) (names : List Bytes) :
    trail (name :: names) = slash :: (name ++ trail names) :=
  List.flatMap_cons

theorem join_append_trail (filled : parts ≠ []) (more : List Bytes) :
    Bytes.join [slash] (parts ++ more) = Bytes.join [slash] parts ++ trail more := by
  induction more generalizing parts with
  | nil => simp
  | cons name more ih =>
      rw [List.append_cons, ih (by simp), Bytes.join_concat _ filled]
      simp

theorem join_cons_trail (name : Bytes) (more : List Bytes) :
    Bytes.join [slash] (name :: more) = name ++ trail more := by
  simpa [Bytes.join] using join_append_trail (List.cons_ne_nil name []) more

/-! ## The names kept by cleaning -/

/-- The names of a path that cleaning keeps. -/
def kept (path : Bytes) : List Bytes :=
  ((names path).foldl (step (isAbsolute path)) []).reverse

/-- The spelling of a clean path with these names. -/
def spell (absolute : Bool) (kept : List Bytes) : Bytes :=
  let spelled := Bytes.join [slash] kept
  if absolute then slash :: spelled else if kept.isEmpty then here else spelled

theorem clean_eq (path : Bytes) : clean path = spell (isAbsolute path) (kept path) :=
  rfl

theorem step_of_isName (proper : IsName name) (absolute : Bool) (reversed : List Bytes) :
    step absolute reversed name = name :: reversed := by
  simp [step, proper.filled, proper.notHere, proper.notAbove]

theorem foldl_step_of_isName (proper : ∀ name ∈ more, IsName name) (absolute : Bool)
    (reversed : List Bytes) :
    more.foldl (step absolute) reversed = more.reverse ++ reversed := by
  induction more generalizing reversed with
  | nil => rfl
  | cons name more ih =>
      obtain ⟨first, others⟩ := List.forall_mem_cons.mp proper
      rw [List.foldl_cons, step_of_isName first, ih others, List.reverse_cons, List.append_assoc,
        List.singleton_append]

/-- A step keeps the names before it or some of them, and adds its own name or
that of a step up. -/
theorem forall_mem_step {holds : Bytes → Prop} {absolute : Bool} {reversed : List Bytes}
    (up : holds above) (before : ∀ name ∈ reversed, holds name)
    (own : name ≠ [] → holds name) : ∀ kept ∈ step absolute reversed name, holds kept := by
  simp only [step]
  split
  · exact before
  · next filled =>
    split
    · exact List.forall_mem_cons.mpr ⟨own (by simp_all), before⟩
    · cases reversed with
      | nil => cases absolute <;> simp [up]
      | cons last others =>
          simp only
          split
          · exact List.forall_mem_cons.mpr ⟨up, before⟩
          · exact (List.forall_mem_cons.mp before).2

theorem forall_mem_foldl_step {holds : Bytes → Prop} {absolute : Bool} {reversed : List Bytes}
    (up : holds above) (before : ∀ name ∈ reversed, holds name)
    (own : ∀ name ∈ more, name ≠ [] → holds name) :
    ∀ kept ∈ more.foldl (step absolute) reversed, holds kept := by
  induction more generalizing reversed with
  | nil => exact before
  | cons name more ih =>
      obtain ⟨first, others⟩ := List.forall_mem_cons.mp own
      exact ih (forall_mem_step up before first) others

theorem filled_of_mem_kept (member : name ∈ kept root) : name ≠ [] ∧ slash ∉ name := by
  have each : ∀ name ∈ (names root).foldl (step (isAbsolute root)) [], name ≠ [] ∧ slash ∉ name :=
    forall_mem_foldl_step (by decide) (by simp) fun _ member filled =>
      ⟨filled, not_mem_of_mem_names member⟩
  exact each name (List.mem_reverse.mp member)

theorem isAbsolute_spell (absolute : Bool) (filled : ∀ name ∈ parts, name ≠ [] ∧ slash ∉ name) :
    isAbsolute (spell absolute parts) = absolute := by
  cases absolute with
  | true => rfl
  | false =>
      cases parts with
      | nil => decide
      | cons name parts =>
          obtain ⟨⟨filled, whole⟩, -⟩ := List.forall_mem_cons.mp filled
          obtain ⟨byte, rest, rfl⟩ := List.exists_cons_of_ne_nil filled
          simp only [spell, join_cons_trail, isAbsolute]
          simp_all [eq_comm]

theorem kept_below (given : root ≠ []) (proper : ∀ name ∈ more, IsName name) (below : more ≠ []) :
    kept (root ++ slash :: Bytes.join [slash] more) = kept root ++ more := by
  have absolute (behind : Bytes) : isAbsolute (root ++ behind) = isAbsolute root := by
    rw [isAbsolute, isAbsolute, List.head?_append_of_ne_nil _ given]
  rw [kept, names_append, names_join (fun name member => (proper name member).whole) below,
    List.foldl_append, absolute, foldl_step_of_isName proper, List.reverse_append,
    List.reverse_reverse, kept]

/-- The path of an entry below a directory. -/
theorem join_below (given : root ≠ []) (proper : ∀ name ∈ more, IsName name) (below : more ≠ []) :
    join root (Bytes.join [slash] more) = spell (isAbsolute root) (kept root ++ more) := by
  rw [join, clean_eq, kept_below given proper below, isAbsolute, isAbsolute,
    List.head?_append_of_ne_nil _ given]

/-- The text with which the paths of all entries below a directory start. -/
def lead (root : Bytes) : Bytes :=
  (if isAbsolute root then [slash] else []) ++ (kept root).flatMap (· ++ [slash])

theorem join_lead (given : root ≠ []) (proper : ∀ name ∈ more, IsName name) (below : more ≠ []) :
    join root (Bytes.join [slash] more) = lead root ++ Bytes.join [slash] more := by
  have ahead (parts : List Bytes) : Bytes.join [slash] (parts ++ more) =
      parts.flatMap (· ++ [slash]) ++ Bytes.join [slash] more := by
    induction parts with
    | nil => rfl
    | cons name parts ih =>
        obtain ⟨next, rest, split⟩ := List.exists_cons_of_ne_nil
          (List.append_ne_nil_of_right_ne_nil parts below)
        rw [List.cons_append, split, Bytes.join, List.intercalate_cons_cons, ← Bytes.join, ← split,
          ih, List.flatMap_cons]
        simp
  rw [join_below given proper below, spell, ahead, lead]
  cases isAbsolute root <;> simp [below]

theorem join_trail (given : root ≠ []) (first : IsName name) (proper : ∀ name ∈ more, IsName name) :
    join root (Bytes.join [slash] (name :: more)) = join root name ++ trail more := by
  have alone : Bytes.join [slash] [name] = name := by simp [join_cons_trail]
  have lead := join_lead given (List.forall_mem_singleton.mpr first) (List.cons_ne_nil name [])
  rw [join_lead given (List.forall_mem_cons.mpr ⟨first, proper⟩) (List.cons_ne_nil _ _),
    join_cons_trail, ← List.append_assoc, ← alone, ← lead, alone]

end JavaFront.Path

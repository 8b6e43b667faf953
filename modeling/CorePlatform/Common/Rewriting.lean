import Mathlib.Data.List.Basic
import Mathlib.Data.List.Infix
import Mathlib.Data.List.Nodup

/-! Rewriting of texts. Single characters are replaced one after the other or at once; rules with
longer left sides are applied all at once from left to right, or one after the other, each at its
first occurrence. -/
namespace Rewriting

structure Rule (α : Type) where
  left : List α
  right : List α
  deriving DecidableEq

/-- A text in parts: characters, and left sides of rules. -/
inductive Piece (α : Type) where
  | literal (c : α)
  | hole (r : Rule α)
  deriving DecidableEq

variable {α : Type}

def Piece.text : Piece α → List α
  | .literal c => [c]
  | .hole r => r.left

def Piece.filled : Piece α → List α
  | .literal c => [c]
  | .hole r => r.right

def text (ps : List (Piece α)) : List α := ps.flatMap Piece.text

/-- Every left side becomes its right side, the rest stays. -/
def filled (ps : List (Piece α)) : List α := ps.flatMap Piece.filled

def holes (ps : List (Piece α)) : List (Rule α) :=
  ps.filterMap fun
    | .literal _ => none
    | .hole r => some r

section Parts

variable {front back : List (Piece α)}

theorem text_append : text (front ++ back) = text front ++ text back := List.flatMap_append

theorem filled_append : filled (front ++ back) = filled front ++ filled back := List.flatMap_append

theorem holes_append : holes (front ++ back) = holes front ++ holes back := List.filterMap_append

theorem text_literals (cs : List α) : text (cs.map Piece.literal) = cs := by
  induction cs with
  | nil => rfl
  | cons c cs ih => exact congrArg (c :: ·) ih

theorem filled_literals (cs : List α) : filled (cs.map Piece.literal) = cs := by
  induction cs with
  | nil => rfl
  | cons c cs ih => exact congrArg (c :: ·) ih

theorem holes_literals (cs : List α) : holes (cs.map Piece.literal) = [] := by
  induction cs with
  | nil => rfl
  | cons c cs ih => exact ih

theorem mem_holes {r : Rule α} {ps : List (Piece α)} : r ∈ holes ps ↔ .hole r ∈ ps := by
  induction ps with
  | nil => simp only [holes, List.filterMap_nil, List.not_mem_nil]
  | cons p ps ih =>
    cases p with
    | literal c =>
      rw [List.mem_cons, ← ih]
      exact (or_iff_right (fun same => nomatch same)).symm
    | hole s =>
      rw [List.mem_cons, Piece.hole.injEq, ← ih]
      exact List.mem_cons

/-- Without holes there is nothing to fill. -/
theorem text_eq_filled {ps : List (Piece α)} (none : holes ps = []) : text ps = filled ps := by
  induction ps with
  | nil => rfl
  | cons p ps ih =>
    cases p with
    | literal c => exact congrArg (c :: ·) (ih none)
    | hole s => exact absurd none (List.cons_ne_nil _ _)

end Parts

/-- A left side stands nowhere in front of the first hole of its rule, and nowhere at all where
there is none. -/
def Clear (r : Rule α) (ps : List (Piece α)) : Prop :=
  ∀ before after, text ps = before ++ r.left ++ after →
    ∃ front back, ps = front ++ .hole r :: back ∧ (text front).length ≤ before.length

/-- A left side between two marks that it holds nowhere else. -/
def Bracketed (opening closing : α) (left : List α) : Prop :=
  ∃ name, left = opening :: name ++ [closing] ∧ opening ∉ name ∧ closing ∉ name

/-- The opening mark stands in front of every left side, and nowhere else in the text. -/
structure Marked (opening closing : α) (rules : List (Rule α)) (ps : List (Piece α)) : Prop where
  different : opening ≠ closing
  distinct : (rules.map Rule.left).Nodup
  bracketed : ∀ r ∈ rules, Bracketed opening closing r.left
  outside : ∀ r ∈ rules, opening ∉ r.right
  known : ∀ r ∈ holes ps, r ∈ rules
  literals : .literal opening ∉ ps

section Marks

variable {opening closing : α} {rules : List (Rule α)} {ps : List (Piece α)} {r s : Rule α}

theorem Bracketed.eq_of_front {left other after rest : List α}
    (bracketed : Bracketed opening closing left) (bracketed' : Bracketed opening closing other)
    (front : left ++ after = other ++ rest) : left = other := by
  obtain ⟨name, rfl, -, closed⟩ := bracketed
  obtain ⟨name', rfl, -, closed'⟩ := bracketed'
  have names : name ++ closing :: after = name' ++ closing :: rest := by
    simpa only [List.cons_append, List.append_assoc, List.nil_append, List.cons.injEq,
      true_and] using front
  rw [List.append_left_inj, List.cons.injEq]
  refine ⟨rfl, ?_⟩
  rcases List.append_eq_append_iff.mp names with ⟨more, rfl, tail⟩ | ⟨more, rfl, tail⟩
  · cases more with
    | nil => exact (List.append_nil name).symm
    | cons c more =>
      obtain ⟨rfl, -⟩ := List.cons.inj tail
      exact absurd (List.mem_append_right name List.mem_cons_self) closed'
  · cases more with
    | nil => exact List.append_nil name'
    | cons c more =>
      obtain ⟨rfl, -⟩ := List.cons.inj tail
      exact absurd (List.mem_append_right name' List.mem_cons_self) closed

theorem Marked.tail {p : Piece α} (marked : Marked opening closing rules (p :: ps)) :
    Marked opening closing rules ps :=
  { marked with
    known := by
      intro r member
      exact marked.known r (mem_holes.mpr (List.mem_cons_of_mem p (mem_holes.mp member)))
    literals := List.not_mem_of_not_mem_cons marked.literals }

/-- Between marks a left side stands only where its own hole is. -/
theorem Marked.clear (marked : Marked opening closing rules ps) (member : r ∈ rules) :
    Clear r ps := by
  obtain ⟨name, left, inner, -⟩ := marked.bracketed r member
  intro before after occurs
  suffices at_hole : ∃ front back, ps = front ++ .hole r :: back ∧ text front = before by
    obtain ⟨front, back, split, rfl⟩ := at_hole
    exact ⟨front, back, split, le_rfl⟩
  induction ps generalizing before with
  | nil =>
    rw [left] at occurs
    exact absurd occurs (by simp [text])
  | cons p ps ih =>
    cases p with
    | literal d =>
      cases before with
      | nil =>
        rw [left] at occurs
        have first : d = opening := (List.cons.inj occurs).1
        exact absurd (first ▸ List.mem_cons_self) marked.literals
      | cons e before =>
        obtain ⟨rfl, later⟩ := List.cons.inj occurs
        obtain ⟨front, back, split, rfl⟩ := ih marked.tail before later
        exact ⟨.literal d :: front, back, congrArg (.literal d :: ·) split, rfl⟩
    | hole s =>
      have known : s ∈ rules := marked.known s (mem_holes.mpr List.mem_cons_self)
      have whole : s.left ++ text ps = before ++ (r.left ++ after) := by
        rw [← List.append_assoc]
        exact occurs
      have behind (more : List α) (later : text ps = more ++ (r.left ++ after)) :
          ∃ front back, .hole s :: ps = front ++ .hole r :: back ∧ text front = s.left ++ more := by
        rw [← List.append_assoc] at later
        obtain ⟨front, back, split, rfl⟩ := ih marked.tail more later
        exact ⟨.hole s :: front, back, congrArg (.hole s :: ·) split, rfl⟩
      rcases List.append_eq_append_iff.mp whole with ⟨more, rfl, later⟩ | ⟨more, inside, later⟩
      · exact behind more later
      · cases before with
        | nil =>
          rw [List.nil_append] at whole
          have lefts := (marked.bracketed s known).eq_of_front (marked.bracketed r member) whole
          obtain rfl := List.inj_on_of_nodup_map marked.distinct known member lefts
          exact ⟨[], ps, rfl, rfl⟩
        | cons e before =>
          cases more with
          | nil =>
            rw [List.append_nil] at inside
            rw [← inside, ← List.append_nil s.left]
            exact behind [] later.symm
          | cons f more =>
            -- A left side holds the opening mark in front only.
            obtain ⟨name', left', inner', -⟩ := marked.bracketed s known
            rw [left] at later
            obtain rfl : f = opening := (List.cons.inj later).1.symm
            rw [left', List.cons_append] at inside
            have tail := (List.cons.inj inside).2
            have found : f ∈ name' ++ [closing] :=
              tail ▸ List.mem_append_right before List.mem_cons_self
            rcases List.mem_append.mp found with within | last
            · exact absurd within inner'
            · exact absurd (List.mem_singleton.mp last) marked.different

end Marks

variable [DecidableEq α]

/-- The characters replaced one after the other, each in the whole text. -/
def replaceEach (table : List (α × List α)) (cs : List α) : List α :=
  table.foldl (fun cs entry => cs.flatMap fun d => if d = entry.1 then entry.2 else [d]) cs

/-- What stands for one character when all are replaced at once. -/
def substitute (table : List (α × List α)) (c : α) : List α := (table.lookup c).getD [c]

section Substitution

variable {table : List (α × List α)}

theorem replaceEach_nil (cs : List α) : replaceEach [] cs = cs := rfl

theorem replaceEach_cons (c : α) (text cs : List α) : replaceEach ((c, text) :: table) cs =
    replaceEach table (cs.flatMap fun d => if d = c then text else [d]) := rfl

theorem substitute_other {c : α} (other : ∀ entry ∈ table, entry.1 ≠ c) :
    substitute table c = [c] := by
  have missing : table.lookup c = none := by
    rw [List.lookup_eq_none_iff]
    intro entry found
    exact bne_iff_ne.mpr (other entry found).symm
  rw [substitute, missing, Option.getD_none]

theorem flatMap_substitute_other {cs : List α} (other : ∀ entry ∈ table, entry.1 ∉ cs) :
    cs.flatMap (substitute table) = cs := by
  induction cs with
  | nil => rfl
  | cons c cs ih =>
    have first := substitute_other fun entry found same =>
      other entry found (same ▸ List.mem_cons_self)
    have rest := ih fun entry found inside => other entry found (List.mem_cons_of_mem c inside)
    rw [List.flatMap_cons, first, rest, List.singleton_append]

/-- One after the other is all at once, where no replacement holds a character that is still to
be replaced. -/
theorem replaceEach_eq (fresh : table.Pairwise fun first later => later.1 ∉ first.2)
    (cs : List α) : replaceEach table cs = cs.flatMap (substitute table) := by
  induction table generalizing cs with
  | nil => exact (flatMap_substitute_other fun entry found => absurd found List.not_mem_nil).symm
  | cons entry table ih =>
    obtain ⟨inert, fresh⟩ := List.pairwise_cons.mp fresh
    rw [replaceEach_cons, ih fresh, List.flatMap_assoc]
    refine congrArg (List.flatMap · cs) (funext fun d => ?_)
    by_cases same : d = entry.1
    · rw [if_pos same, flatMap_substitute_other inert, substitute, List.lookup_cons, same,
        beq_self_eq_true]
      rfl
    · rw [if_neg same, List.flatMap_singleton, substitute, substitute, List.lookup_cons,
        beq_eq_false_iff_ne.mpr same]

end Substitution

/-- Of the rules that apply in front the one with the longest left side. -/
def longest (rules : List (Rule α)) (cs : List α) : Option (Rule α) :=
  match rules with
  | [] => none
  | r :: rules =>
    if r.left <+: cs then
      match longest rules cs with
      | some s => if r.left.length < s.left.length then some s else some r
      | none => some r
    else longest rules cs

section Longest

variable {rules : List (Rule α)} {cs : List α} {r : Rule α}

theorem longest_eq_none : longest rules cs = none ↔ ∀ s ∈ rules, ¬ s.left <+: cs := by
  induction rules with
  | nil => simp only [longest, List.not_mem_nil, false_imp_iff, implies_true]
  | cons r rules ih =>
    rw [List.forall_mem_cons, ← ih, longest]
    by_cases applies : r.left <+: cs
    · simp only [applies, if_true, not_true, false_and, iff_false]
      split
      · split <;> exact Option.some_ne_none _
      · exact Option.some_ne_none _
    · simp only [applies, if_false, not_false_eq_true, true_and]

theorem longest_spec (found : longest rules cs = some r) : r ∈ rules ∧ r.left <+: cs ∧
    ∀ s ∈ rules, s.left <+: cs → s.left.length ≤ r.left.length := by
  induction rules generalizing r with
  | nil => contradiction
  | cons t rules ih =>
    rw [longest] at found
    by_cases applies : t.left <+: cs
    · rw [if_pos applies] at found
      cases best : longest rules cs with
      | none =>
        obtain rfl : t = r := by simpa only [best, Option.some.injEq] using found
        refine ⟨List.mem_cons_self, applies, List.forall_mem_cons.mpr ⟨fun _ => le_rfl, ?_⟩⟩
        exact fun s member inside => absurd inside (longest_eq_none.mp best s member)
      | some u =>
        obtain ⟨member, inside, most⟩ := ih best
        simp only [best] at found
        split at found
        · rename_i longer
          obtain rfl := Option.some.inj found
          exact ⟨List.mem_cons_of_mem _ member, inside,
            List.forall_mem_cons.mpr ⟨fun _ => longer.le, most⟩⟩
        · rename_i shorter
          obtain rfl := Option.some.inj found
          exact ⟨List.mem_cons_self, applies, List.forall_mem_cons.mpr ⟨fun _ => le_rfl,
            fun s found inside => (most s found inside).trans (not_lt.mp shorter)⟩⟩
    · rw [if_neg applies] at found
      obtain ⟨member, inside, most⟩ := ih found
      exact ⟨List.mem_cons_of_mem _ member, inside,
        List.forall_mem_cons.mpr ⟨fun inside => absurd inside applies, most⟩⟩

/-- A rule that applies, where any other that applies is shorter. -/
theorem longest_eq (member : r ∈ rules) (inside : r.left <+: cs)
    (most : ∀ s ∈ rules, s.left <+: cs → s = r ∨ s.left.length < r.left.length) :
    longest rules cs = some r := by
  cases found : longest rules cs with
  | none => exact absurd inside (longest_eq_none.mp found r member)
  | some s =>
    obtain ⟨listed, applies, least⟩ := longest_spec found
    rcases most s listed applies with rfl | shorter
    · rfl
    · exact absurd (least r member inside) (not_le.mpr shorter)

/-- The order of the rules does not matter, when their left sides are distinct. -/
theorem longest_perm {rules' : List (Rule α)} (perm : rules.Perm rules')
    (distinct : (rules.map Rule.left).Nodup) : longest rules cs = longest rules' cs := by
  cases found : longest rules cs with
  | none =>
    refine (longest_eq_none.mpr fun s member => ?_).symm
    exact longest_eq_none.mp found s (perm.mem_iff.mpr member)
  | some r =>
    obtain ⟨member, inside, most⟩ := longest_spec found
    refine (longest_eq (perm.mem_iff.mp member) inside fun s listed applies => ?_).symm
    have listed := perm.mem_iff.mpr listed
    rcases (most s listed applies).lt_or_eq with shorter | same
    · exact .inr shorter
    · have lefts : s.left = r.left :=
        (List.prefix_of_prefix_length_le applies inside same.le).eq_of_length same
      exact .inl (List.inj_on_of_nodup_map distinct listed member lefts)

end Longest

/-- A text as literals and left sides, from left to right; `skip` more characters belong to the
left side in front. -/
def pieces (rules : List (Rule α)) : (skip : ℕ) → List α → List (Piece α)
  | _, [] => []
  | skip + 1, _ :: cs => pieces rules skip cs
  | 0, c :: cs =>
    match longest rules (c :: cs) with
    | some r => .hole r :: pieces rules (r.left.length - 1) cs
    | none => .literal c :: pieces rules 0 cs

/-- All rules at once. -/
def rewrite (rules : List (Rule α)) (cs : List α) : List α := filled (pieces rules 0 cs)

section Pieces

variable {rules : List (Rule α)} {r : Rule α}

theorem pieces_skip (front cs : List α) :
    pieces rules front.length (front ++ cs) = pieces rules 0 cs := by
  induction front with
  | nil => rfl
  | cons c front ih => exact ih

theorem pieces_hole (filled : r.left ≠ []) {cs : List α}
    (found : longest rules (r.left ++ cs) = some r) :
    pieces rules 0 (r.left ++ cs) = .hole r :: pieces rules 0 cs := by
  obtain ⟨c, front, left⟩ := List.exists_cons_of_ne_nil filled
  rw [left, List.cons_append] at found ⊢
  simp only [pieces, found, left, List.length_cons, Nat.add_sub_cancel, pieces_skip]

theorem pieces_literal {c : α} {cs : List α} (missing : longest rules (c :: cs) = none) :
    pieces rules 0 (c :: cs) = .literal c :: pieces rules 0 cs := by
  simp only [pieces, missing]

/-- The pieces make up the text. -/
theorem text_pieces (filled : ∀ r ∈ rules, r.left ≠ []) (skip : ℕ) (cs : List α) :
    text (pieces rules skip cs) = cs.drop skip := by
  induction cs generalizing skip with
  | nil => cases skip <;> rfl
  | cons c cs ih =>
    cases skip with
    | succ skip => exact ih skip
    | zero =>
      cases found : longest rules (c :: cs) with
      | none =>
        rw [pieces_literal found]
        exact congrArg (c :: ·) (ih 0)
      | some r =>
        obtain ⟨member, ⟨rest, split⟩, -⟩ := longest_spec found
        obtain ⟨d, front, left⟩ := List.exists_cons_of_ne_nil (filled r member)
        rw [left, List.cons_append] at split
        obtain ⟨rfl, rfl⟩ := List.cons.inj split
        simp only [pieces, found]
        rw [text, List.flatMap_cons]
        refine (congrArg (r.left ++ ·) (ih _)).trans ?_
        rw [left, List.length_cons, Nat.add_sub_cancel, List.drop_left]
        rfl

theorem mem_pieces {skip : ℕ} {cs : List α} (member : .hole r ∈ pieces rules skip cs) :
    r ∈ rules := by
  induction cs generalizing skip with
  | nil => cases skip <;> contradiction
  | cons c cs ih =>
    cases skip with
    | succ skip => exact ih member
    | zero =>
      simp only [pieces] at member
      split at member
      · rename_i s found
        rcases List.mem_cons.mp member with same | later
        · rw [Piece.hole.inj same]
          exact (longest_spec found).1
        · exact ih later
      · rcases List.mem_cons.mp member with same | later
        · contradiction
        · exact ih later

theorem pieces_perm {rules' : List (Rule α)} (perm : rules.Perm rules')
    (distinct : (rules.map Rule.left).Nodup) (skip : ℕ) (cs : List α) :
    pieces rules skip cs = pieces rules' skip cs := by
  induction cs generalizing skip with
  | nil => cases skip <;> rfl
  | cons c cs ih =>
    cases skip with
    | zero =>
      simp only [pieces, longest_perm perm distinct]
      split <;> rw [ih]
    | succ skip => exact ih skip

end Pieces

/-- What stands before and after the first occurrence of a left side. -/
def splitFirst (left : List α) : List α → Option (List α × List α)
  | [] => if left = [] then some ([], []) else none
  | c :: cs =>
    if left <+: c :: cs then some ([], (c :: cs).drop left.length)
    else (splitFirst left cs).map fun around => (c :: around.1, around.2)

section Occurrences

variable {left cs before after : List α}

theorem splitFirst_spec (found : splitFirst left cs = some (before, after)) :
    cs = before ++ left ++ after ∧
      ∀ before' after', cs = before' ++ left ++ after' → before.length ≤ before'.length := by
  induction cs generalizing before after with
  | nil =>
    simp only [splitFirst] at found
    split at found
    · rename_i empty
      cases found
      exact ⟨by rw [empty]; rfl, fun _ _ _ => Nat.zero_le _⟩
    · contradiction
  | cons c cs ih =>
    simp only [splitFirst] at found
    split at found
    · rename_i front
      cases found
      exact ⟨(List.prefix_iff_eq_append.mp front).symm, fun _ _ _ => Nat.zero_le _⟩
    · rename_i other
      obtain ⟨⟨before, after⟩, later, same⟩ := Option.map_eq_some_iff.mp found
      cases same
      obtain ⟨split, first⟩ := ih later
      refine ⟨congrArg (c :: ·) split, fun before' after' occurs => ?_⟩
      cases before' with
      | nil => exact absurd ⟨after', occurs.symm⟩ other
      | cons d before' => exact Nat.succ_le_succ (first before' after' (List.cons.inj occurs).2)

theorem splitFirst_of_split (occurs : cs = before ++ left ++ after) :
    ∃ around, splitFirst left cs = some around := by
  induction cs generalizing before with
  | nil =>
    have empty : left = [] := by simp_all only [List.nil_eq, List.append_eq_nil_iff]
    exact ⟨_, if_pos empty⟩
  | cons c cs ih =>
    simp only [splitFirst]
    split
    · exact ⟨_, rfl⟩
    · rename_i other
      cases before with
      | nil => exact absurd ⟨after, occurs.symm⟩ other
      | cons d before =>
        obtain ⟨around, found⟩ := ih (List.cons.inj occurs).2
        exact ⟨_, congrArg _ found⟩

/-- The occurrence that none is in front of. -/
theorem splitFirst_eq (occurs : cs = before ++ left ++ after)
    (first : ∀ before' after', cs = before' ++ left ++ after' → before.length ≤ before'.length) :
    splitFirst left cs = some (before, after) := by
  obtain ⟨⟨before', after'⟩, found⟩ := splitFirst_of_split occurs
  obtain ⟨split, least⟩ := splitFirst_spec found
  have same : before'.length = before.length :=
    le_antisymm (least before after occurs) (first before' after' split)
  obtain ⟨fronts, rfl⟩ := List.append_inj (split.symm.trans occurs)
    (by rw [List.length_append, List.length_append, same])
  obtain ⟨rfl, -⟩ := List.append_inj fronts same
  exact found

end Occurrences

/-- One rule at its first occurrence; its right side is expanded there, with what it replaces and
what stands around that. -/
def rewriteFirst (expand : (matched before after right : List α) → List α) (r : Rule α)
    (cs : List α) : List α :=
  match splitFirst r.left cs with
  | some (before, after) => before ++ expand r.left before after r.right ++ after
  | none => cs

def rewriteEach (expand : (matched before after right : List α) → List α)
    (rules : List (Rule α)) (cs : List α) : List α :=
  rules.foldl (fun cs r => rewriteFirst expand r cs) cs

/-- The first hole of a rule gets its right side. -/
def fillFirst (r : Rule α) : List (Piece α) → List (Piece α)
  | [] => []
  | .literal c :: ps => .literal c :: fillFirst r ps
  | .hole s :: ps => if s = r then r.right.map .literal ++ ps else .hole s :: fillFirst r ps

def fillEach (rules : List (Rule α)) (ps : List (Piece α)) : List (Piece α) :=
  rules.foldl (fun ps r => fillFirst r ps) ps

/-- No rule that is applied makes an occurrence of a later one that comes before its holes. -/
def Undisturbed : List (Rule α) → List (Piece α) → Prop
  | [], _ => True
  | r :: rules, ps => Clear r ps ∧ Undisturbed rules (fillFirst r ps)

section Filling

variable {r : Rule α} {rules : List (Rule α)} {ps front back : List (Piece α)}

/-- The pieces in front of a rule's first hole stay. -/
theorem fillFirst_append (before : .hole r ∉ front) :
    fillFirst r (front ++ back) = front ++ fillFirst r back := by
  induction front with
  | nil => rfl
  | cons p front ih =>
    have other := List.ne_of_not_mem_cons before
    have later := List.not_mem_of_not_mem_cons before
    cases p with
    | literal c => exact congrArg (.literal c :: ·) (ih later)
    | hole s =>
      have different : ¬ s = r := fun same => other (congrArg Piece.hole same.symm)
      exact (if_neg different).trans (congrArg (.hole s :: ·) (ih later))

theorem fillFirst_eq (before : .hole r ∉ front) :
    fillFirst r (front ++ .hole r :: back) = front ++ r.right.map .literal ++ back := by
  have filled : fillFirst r (.hole r :: back) = r.right.map .literal ++ back := if_pos rfl
  rw [fillFirst_append before, filled, List.append_assoc]

theorem fillFirst_absent (absent : .hole r ∉ ps) : fillFirst r ps = ps := by
  have whole : fillFirst r (ps ++ []) = ps ++ fillFirst r [] := fillFirst_append absent
  rwa [List.append_nil, fillFirst, List.append_nil] at whole

/-- A rule's first hole stands behind no hole of its own. -/
theorem fillFirst_cases (r : Rule α) (ps : List (Piece α)) :
    .hole r ∉ ps ∧ fillFirst r ps = ps ∨
    ∃ front back, ps = front ++ .hole r :: back ∧ .hole r ∉ front ∧
      fillFirst r ps = front ++ r.right.map .literal ++ back := by
  by_cases member : .hole r ∈ ps
  · obtain ⟨front, back, rfl, before⟩ := List.eq_append_cons_of_mem member
    exact .inr ⟨front, back, rfl, before, fillFirst_eq before⟩
  · exact .inl ⟨member, fillFirst_absent member⟩

@[simp] theorem filled_fillFirst : filled (fillFirst r ps) = filled ps := by
  obtain ⟨-, same⟩ | ⟨front, back, rfl, -, same⟩ := fillFirst_cases r ps
  · rw [same]
  · rw [same, filled_append, filled_append, filled_literals, filled_append, List.append_assoc]
    rfl

@[simp] theorem holes_fillFirst : holes (fillFirst r ps) = (holes ps).erase r := by
  obtain ⟨absent, same⟩ | ⟨front, back, rfl, before, same⟩ := fillFirst_cases r ps
  · rw [same, List.erase_of_not_mem (mem_holes.not.mpr absent)]
  · have others : holes (.hole r :: back) = r :: holes back := rfl
    rw [same, holes_append, holes_append, holes_literals, List.append_nil, holes_append, others,
      List.erase_append_right _ (mem_holes.not.mpr before), List.erase_cons_head]

theorem filled_fillEach : filled (fillEach rules ps) = filled ps := by
  induction rules generalizing ps with
  | nil => rfl
  | cons r rules ih => exact (@ih (fillFirst r ps)).trans filled_fillFirst

/-- Every rule that is applied takes one of its holes, if there is one. -/
theorem count_holes_fillEach (r : Rule α) :
    (holes (fillEach rules ps)).count r = (holes ps).count r - rules.count r := by
  induction rules generalizing ps with
  | nil => rfl
  | cons s rules ih =>
    have later := @ih (fillFirst s ps)
    rw [holes_fillFirst, List.count_erase] at later
    rw [List.count_cons]
    exact later.trans (by omega)

theorem mem_holes_fillEach (member : r ∈ holes (fillEach rules ps)) : r ∈ holes ps := by
  have positive := List.count_pos_iff.mpr member
  rw [count_holes_fillEach] at positive
  exact List.count_pos_iff.mp (by omega)

/-- A rule at its first occurrence fills its first hole. -/
theorem rewriteFirst_text {expand : (matched before after right : List α) → List α}
    (clear : Clear r ps) (literal : .hole r ∈ ps →
      ∀ matched before after, expand matched before after r.right = r.right) :
    rewriteFirst expand r (text ps) = text (fillFirst r ps) := by
  obtain ⟨absent, same⟩ | ⟨front, back, rfl, before, same⟩ := fillFirst_cases r ps
  · have missing : splitFirst r.left (text ps) = none := by
      cases found : splitFirst r.left (text ps) with
      | none => rfl
      | some around =>
        obtain ⟨front, back, split, -⟩ := clear _ _ (splitFirst_spec found).1
        exact absurd (split ▸ List.mem_append_right front List.mem_cons_self) absent
    rw [rewriteFirst, missing, same]
  · have occurs : text (front ++ .hole r :: back) = text front ++ r.left ++ text back := by
      rw [text_append, List.append_assoc]
      rfl
    have first : ∀ before' after', text (front ++ .hole r :: back) = before' ++ r.left ++ after' →
        (text front).length ≤ before'.length := by
      intro before' after' other
      obtain ⟨front', back', split, bound⟩ := clear before' after' other
      -- The first hole is in front of any other of the same rule.
      have ordered : ∃ more, front' = front ++ more := by
        rcases List.append_eq_append_iff.mp split with ⟨more, rfl, -⟩ | ⟨more, rfl, tail⟩
        · exact ⟨more, rfl⟩
        · cases more with
          | nil => exact ⟨[], by rw [List.append_nil, List.append_nil]⟩
          | cons p more =>
            obtain ⟨rfl, -⟩ := List.cons.inj tail
            exact absurd (List.mem_append_right front' List.mem_cons_self) before
      obtain ⟨more, rfl⟩ := ordered
      rw [text_append, List.length_append] at bound
      omega
    have put := literal (List.mem_append_right front List.mem_cons_self) r.left (text front)
      (text back)
    have result : text (front ++ r.right.map .literal ++ back) =
        text front ++ r.right ++ text back := by
      rw [text_append, text_append, text_literals]
    rw [rewriteFirst, splitFirst_eq occurs first, same, result]
    exact congrArg (text front ++ · ++ text back) put

theorem mem_fillFirst {s : Rule α} (member : .hole s ∈ fillFirst r ps) : .hole s ∈ ps := by
  rw [← mem_holes, holes_fillFirst] at member
  exact mem_holes.mp (List.mem_of_mem_erase member)

/-- One rule after the other fills the first holes. -/
theorem rewriteEach_text {expand : (matched before after right : List α) → List α}
    (undisturbed : Undisturbed rules ps) (literal : ∀ r, .hole r ∈ ps →
      ∀ matched before after, expand matched before after r.right = r.right) :
    rewriteEach expand rules (text ps) = text (fillEach rules ps) := by
  induction rules generalizing ps with
  | nil => rfl
  | cons r rules ih =>
    obtain ⟨clear, undisturbed⟩ := undisturbed
    have first := rewriteFirst_text clear (literal r)
    have later := ih undisturbed fun s member => literal s (mem_fillFirst member)
    rw [rewriteEach, List.foldl_cons, first]
    exact later

theorem rewriteEach_once {expand : (matched before after right : List α) → List α}
    (undisturbed : Undisturbed rules ps) (literal : ∀ r, .hole r ∈ ps →
      ∀ matched before after, expand matched before after r.right = r.right)
    (known : ∀ r ∈ holes ps, r ∈ rules) (once : (holes ps).Nodup) :
    rewriteEach expand rules (text ps) = filled ps := by
  have empty : holes (fillEach rules ps) = [] := by
    refine List.eq_nil_iff_forall_not_mem.mpr fun r member => ?_
    have positive := List.count_pos_iff.mpr member
    have single := List.nodup_iff_count_le_one.mp once r
    have applied := List.count_pos_iff.mpr (known r (mem_holes_fillEach member))
    rw [count_holes_fillEach] at positive
    omega
  rw [rewriteEach_text undisturbed literal, text_eq_filled empty, filled_fillEach]

/-- A character of every left side and of no right side counts the holes. -/
theorem count_text {c : α} (marked : ∀ r ∈ holes ps, c ∈ r.left ∧ c ∉ r.right) :
    (filled ps).count c + (holes ps).length ≤ (text ps).count c := by
  induction ps with
  | nil => exact le_rfl
  | cons p ps ih =>
    cases p with
    | literal d =>
      have later := ih marked
      have filled_eq : filled (.literal d :: ps) = d :: filled ps := rfl
      have text_eq : text (.literal d :: ps) = d :: text ps := rfl
      have holes_eq : holes (.literal d :: ps) = holes ps := rfl
      rw [filled_eq, text_eq, holes_eq, List.count_cons, List.count_cons]
      omega
    | hole s =>
      have holes_eq : holes (.hole s :: ps) = s :: holes ps := rfl
      rw [holes_eq] at marked ⊢
      obtain ⟨⟨inside, outside⟩, marked⟩ := List.forall_mem_cons.mp marked
      have later := ih marked
      have filled_eq : filled (.hole s :: ps) = s.right ++ filled ps := rfl
      have text_eq : text (.hole s :: ps) = s.left ++ text ps := rfl
      have more : 0 < s.left.count c := List.count_pos_iff.mpr inside
      rw [filled_eq, text_eq, List.count_append, List.count_append, List.length_cons,
        List.count_eq_zero_of_not_mem outside]
      omega

/-- Where a mark tells left sides from right sides, one rule after the other gives the text of all
at once exactly when no rule has two holes. -/
theorem rewriteEach_iff {expand : (matched before after right : List α) → List α} {c : α}
    (undisturbed : Undisturbed rules ps) (literal : ∀ r, .hole r ∈ ps →
      ∀ matched before after, expand matched before after r.right = r.right)
    (known : ∀ r ∈ holes ps, r ∈ rules) (distinct : rules.Nodup)
    (marked : ∀ r ∈ rules, c ∈ r.left ∧ c ∉ r.right) :
    rewriteEach expand rules (text ps) = filled ps ↔ (holes ps).Nodup := by
  constructor
  · intro same
    have remaining : ∀ r ∈ holes (fillEach rules ps), c ∈ r.left ∧ c ∉ r.right :=
      fun r member => marked r (known r (mem_holes_fillEach member))
    have counted := count_text remaining
    rw [filled_fillEach, ← rewriteEach_text undisturbed literal, same] at counted
    have empty : holes (fillEach rules ps) = [] := List.length_eq_zero_iff.mp (by omega)
    refine List.nodup_iff_count_le_one.mpr fun r => ?_
    have rest : (holes (fillEach rules ps)).count r = _ := count_holes_fillEach r
    rw [empty, List.count_nil] at rest
    have := List.nodup_iff_count_le_one.mp distinct r
    omega
  · exact rewriteEach_once undisturbed literal known

end Filling

theorem Marked.fillFirst {opening closing : α} {rules : List (Rule α)} {ps : List (Piece α)}
    {r : Rule α} (marked : Marked opening closing rules ps) (member : r ∈ rules) :
    Marked opening closing rules (fillFirst r ps) :=
  { marked with
    known := by
      intro s found
      exact marked.known s (mem_holes.mpr (mem_fillFirst (mem_holes.mp found)))
    literals := by
      obtain ⟨-, same⟩ | ⟨front, back, rfl, -, same⟩ := fillFirst_cases r ps
      · rw [same]
        exact marked.literals
      · have outside := marked.outside r member
        have literals := marked.literals
        rw [same]
        simp only [List.mem_append, List.mem_map, Piece.literal.injEq, List.mem_cons,
          reduceCtorEq, false_or, not_or] at literals ⊢
        refine ⟨⟨literals.1, ?_⟩, literals.2⟩
        rintro ⟨c, inside, rfl⟩
        exact outside inside }

/-- Between marks nothing that is filled in makes a left side. -/
theorem Marked.undisturbed {opening closing : α} {rules applied : List (Rule α)}
    {ps : List (Piece α)} (marked : Marked opening closing rules ps) (listed : applied ⊆ rules) :
    Undisturbed applied ps := by
  induction applied generalizing ps with
  | nil => trivial
  | cons r applied ih =>
    obtain ⟨member, listed⟩ := List.cons_subset.mp listed
    exact ⟨marked.clear member, ih (marked.fillFirst member) listed⟩

end Rewriting

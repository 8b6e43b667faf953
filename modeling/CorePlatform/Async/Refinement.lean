import CorePlatform.Async.Pool

/-! The same calls over two stores. A store stands for another one where every command gets the
same response from both; no call can then tell them apart, and what a run over the first has
made the calls do, a run over the second makes them do too. -/
namespace Async

variable {I : Interface} {ε Q α S T : Type}

/-- The environment acts, any number of times. -/
def System.Acts (sys : System I ε Q α S) : S → S → Prop :=
  Relation.ReflTransGen fun s s' => ∃ a, sys.act a s = some s'

/-- Runs in which only some calls are made and only some acts happen. -/
def System.Asking (sys : System I ε Q α S) (asked : Q → Prop) (allows : S → sys.Act → Prop)
    (pool : Pool I ε Q α S) : Label Q sys.Choice sys.Act → Prop
  | .spawn q => asked q
  | .run _ _ => True
  | .act a => allows pool.store a

instance (sys : System I ε Q α S) (asked : Q → Prop) (allows : S → sys.Act → Prop)
    [DecidablePred asked] [∀ s a, Decidable (allows s a)] (pool : Pool I ε Q α S) :
    (label : Label Q sys.Choice sys.Act) → Decidable (sys.Asking asked allows pool label)
  | .spawn q => inferInstanceAs (Decidable (asked q))
  | .run _ _ => .isTrue trivial
  | .act a => inferInstanceAs (Decidable (allows pool.store a))

/-- The calls that are under way have been asked for. -/
theorem System.Reachable.asked {sys : System I ε Q α S} {asked : Q → Prop}
    {allows : S → sys.Act → Prop} {init : S → Prop} {pool : Pool I ε Q α S}
    (reachable : sys.Reachable (sys.Asking asked allows) init pool)
    (found : pool.thread? t = some th) : asked th.request := by
  suffices all : ∀ t th, pool.thread? t = some th → asked th.request from all t th found
  refine reachable.invariant
    (P := fun pool => ∀ t th, pool.thread? t = some th → asked th.request) ?_ ?_
  · intro s _ t th found
    cases found
  · intro pool label pool' _ _ all met effect t th found
    cases effect with
    | spawn q =>
      obtain ⟨_, rfl⟩ | found := Pool.add_cases found
      · exact met
      · exact all t th found
    | run u choice th₀ c k r s found₀ awaits executed =>
      obtain ⟨rfl, rfl⟩ | ⟨_, found⟩ := Pool.set_cases found
      · exact all t th₀ found₀
      · exact all t th found
    | act a s acted => exact all t th found

/-- Any act of the environment. -/
def System.AnyAct (sys : System I ε Q α S) (_ : S) (_ : sys.Act) : Prop := True

/-- A forward simulation: `shows s t` where the store `s` of `low` stands for the store `t` of
`high`. An act of `low` that is allowed may be any number of acts of `high`. -/
structure Refines (low : System I ε Q α S) (high : System I ε Q α T) (allows : S → low.Act → Prop)
    (shows : S → T → Prop) : Prop where
  body : ∀ q, high.body q = low.body q
  exec : ∀ {c : I.Cmd} {s s' : S} {t : T} {r : Except ε (I.Resp c)}, shows s t →
    low.Responds c s r s' → ∃ t', high.Responds c t r t' ∧ shows s' t'
  act : ∀ {a : low.Act} {s s' : S} {t : T}, shows s t → allows s a → low.act a s = some s' →
    ∃ t', high.Acts t t' ∧ shows s' t'

/-- The stores show each other, and the calls are the same at the same points. -/
def Mirrors (shows : S → T → Prop) (pool : Pool I ε Q α S) (image : Pool I ε Q α T) : Prop :=
  image.threads = pool.threads ∧ shows pool.store image.store

section Runs

variable {low : System I ε Q α S} {high : System I ε Q α T} {allows : S → low.Act → Prop}
  {shows : S → T → Prop} {asked : Q → Prop} {pool pool' : Pool I ε Q α S} {image : Pool I ε Q α T}

/-- What the environment does is done between the steps of the calls. -/
theorem System.Acts.run {t t' : T} (acts : high.Acts t t') (threads : List (Thread I ε Q α)) :
    high.Run (high.Asking asked high.AnyAct) ⟨t, threads⟩ ⟨t', threads⟩ := by
  induction acts with
  | refl => exact .refl
  | tail _ last earlier =>
    obtain ⟨a, acted⟩ := last
    refine earlier.tail ⟨.act a, ?_, trivial⟩
    simp only [System.step, acted, Option.map_some]

theorem Refines.step (refines : Refines low high allows shows)
    {label : Label Q low.Choice low.Act} (mirrors : Mirrors shows pool image)
    (met : low.Asking asked allows pool label) (effect : low.Effect pool label pool') :
    ∃ image', high.Run (high.Asking asked high.AnyAct) image image' ∧
      Mirrors shows pool' image' := by
  obtain ⟨t, threads⟩ := image
  obtain ⟨rfl, shown⟩ := mirrors
  cases effect with
  | spawn q =>
    refine ⟨_, .single ⟨.spawn q, rfl, met⟩, ?_, shown⟩
    simp only [Pool.add, refines.body]
  | run u choice th c k r s found awaits executed =>
    obtain ⟨t', ⟨choice', executed'⟩, shown'⟩ := refines.exec shown ⟨choice, executed⟩
    obtain ⟨q, trace, rest⟩ := th
    cases awaits
    refine ⟨(⟨t', pool.threads⟩ : Pool I ε Q α T).set u ⟨q, ⟨c, r⟩ :: trace, k r⟩, ?_, rfl, shown'⟩
    refine .single ⟨.run u choice', ?_, trivial⟩
    have found' : (⟨t, pool.threads⟩ : Pool I ε Q α T).thread? u = some ⟨q, trace, .await c k⟩ :=
      found
    simp only [System.step, found', executed', Option.map_some]
  | act a s acted =>
    obtain ⟨t', acts, shown'⟩ := refines.act shown met acted
    exact ⟨⟨t', pool.threads⟩, acts.run _, rfl, shown'⟩

/-- A run over the one store is mirrored by a run over the other. -/
theorem Refines.run (refines : Refines low high allows shows)
    (run : low.Run (low.Asking asked allows) pool pool') (mirrors : Mirrors shows pool image) :
    ∃ image', high.Run (high.Asking asked high.AnyAct) image image' ∧
      Mirrors shows pool' image' := by
  induction run with
  | refl => exact ⟨image, .refl, mirrors⟩
  | tail _ last earlier =>
    obtain ⟨image', run', mirrors'⟩ := earlier
    obtain ⟨label, stepped, met⟩ := last
    obtain ⟨image'', last', mirrors''⟩ :=
      refines.step mirrors' met (System.step_effect stepped)
    exact ⟨image'', run'.trans last', mirrors''⟩

theorem Refines.reachable (refines : Refines low high allows shows) {init : S → Prop}
    {init' : T → Prop} (starts : ∀ s, init s → ∃ t, init' t ∧ shows s t)
    (reachable : low.Reachable (low.Asking asked allows) init pool) :
    ∃ image, high.Reachable (high.Asking asked high.AnyAct) init' image ∧
      Mirrors shows pool image := by
  obtain ⟨s, start, run⟩ := reachable
  obtain ⟨t, start', shown⟩ := starts s start
  have mirrors : Mirrors shows (System.idle s : Pool I ε Q α S) (System.idle t) := ⟨rfl, shown⟩
  obtain ⟨image, run', mirrors'⟩ := refines.run run mirrors
  exact ⟨image, ⟨t, start', run'⟩, mirrors'⟩

end Runs
end Async

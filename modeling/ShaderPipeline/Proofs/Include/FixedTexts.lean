import ShaderPipeline.Include.Expansion
import ShaderPipeline.Proofs.Logged

/-! Registries of fixed texts. What has been asked for before makes no difference to an expansion,
and to what is computed from expansions. -/

namespace ShaderPipeline

/-- Every provider gives one text, whenever it is asked. -/
def Registry.Fixed (registry : Registry) : Prop :=
  ∀ (name : String) (provider : Provider), registry.providers[name]? = some provider →
    ∃ text, provider = .fixed text

theorem Provider.fixed_inj {first second : Text} :
    Provider.fixed first = Provider.fixed second ↔ first = second :=
  ⟨fun same => congrFun same 0, congrArg Provider.fixed⟩

theorem Registry.Fixed.provider_eq {registry : Registry} (fixed : registry.Fixed) {name : String}
    {text : Text} (registered : (registry.get? name).1 = some text) :
    registry.providers[name]? = some (.fixed text) := by
  rw [Registry.get?] at registered
  cases found : registry.providers[name]? with
  | none => simp [found] at registered
  | some provider =>
    obtain ⟨own, rfl⟩ := fixed name provider found
    rw [found] at registered
    cases registered
    rfl

/-- Every provider of a registry of texts is for one of the texts. -/
theorem Registry.mem_of_ofTexts {texts : List (String × Text)} {name : String} {provider : Provider}
    (found : (Registry.ofTexts texts).providers[name]? = some provider) :
    ∃ text, (name, text) ∈ texts ∧ provider = .fixed text := by
  have grows (start : Registry) (registered : (texts.foldl (fun registry entry =>
      registry.register entry.1 (.fixed entry.2)) start).providers[name]? = some provider) :
      start.providers[name]? = some provider ∨
        ∃ text, (name, text) ∈ texts ∧ provider = .fixed text := by
    clear found
    induction texts generalizing start with
    | nil => exact .inl registered
    | cons entry rest ih =>
      rcases ih _ registered with first | ⟨text, member, same⟩
      · simp only [Registry.register, Std.TreeMap.getElem?_insert] at first
        split at first
        next here =>
          obtain rfl := Std.LawfulEqCmp.eq_of_compare here
          exact .inr ⟨entry.2, List.mem_cons_self, (Option.some.inj first).symm⟩
        next => exact .inl first
      · exact .inr ⟨text, List.mem_cons_of_mem entry member, same⟩
  rcases grows .empty found with none | member
  · simp [Registry.empty] at none
  · exact member

theorem Registry.fixed_ofTexts (texts : List (String × Text)) : (Registry.ofTexts texts).Fixed := by
  intro name provider found
  obtain ⟨text, _, same⟩ := Registry.mem_of_ofTexts found
  exact ⟨text, same⟩

/-- What holds of the texts holds of every text that is registered. -/
theorem Registry.forall_ofTexts {texts : List (String × Text)} {property : Text → Prop}
    (all : ∀ entry ∈ texts, property entry.2) (name : String) (text : Text)
    (found : (Registry.ofTexts texts).providers[name]? = some (.fixed text)) : property text := by
  obtain ⟨own, member, same⟩ := Registry.mem_of_ofTexts found
  rw [Provider.fixed_inj.mp same]
  exact all _ member

/-- However often the providers have been asked, the computation answers and logs the same. -/
def Repeatable (providers : Providers) (compute : Registry → Logged (α × Registry)) : Prop :=
  ∃ answer log, ∀ calls, ∃ after, compute ⟨providers, calls⟩ = ⟨(answer, ⟨providers, after⟩), log⟩

namespace Repeatable

variable {providers : Providers}

theorem pure (answer : α) : Repeatable providers fun registry => Pure.pure (answer, registry) :=
  ⟨answer, [], fun calls => ⟨calls, rfl⟩⟩

theorem bind {first : Registry → Logged (α × Registry)}
    {next : α → Registry → Logged (β × Registry)} (repeatable : Repeatable providers first)
    (follows : ∀ answer, Repeatable providers (next answer)) :
    Repeatable providers fun registry => first registry >>= fun (answer, after) =>
      next answer after := by
  obtain ⟨answer, log, steady⟩ := repeatable
  obtain ⟨last, more, goesOn⟩ := follows answer
  refine ⟨last, log ++ more, fun calls => ?_⟩
  obtain ⟨between, here⟩ := steady calls
  obtain ⟨after, there⟩ := goesOn between
  exact ⟨after, by apply Logged.ext <;> simp [here, there]⟩

theorem logged (logged : Logged α) :
    Repeatable providers fun registry => logged >>= fun answer => Pure.pure (answer, registry) :=
  ⟨logged.value, logged.log, fun calls => ⟨calls, by apply Logged.ext <;> simp⟩⟩

/-- Two runs have one answer. -/
theorem answer_eq {compute : Registry → Logged (α × Registry)}
    (repeatable : Repeatable providers compute) (calls others : CallCounts) :
    (compute ⟨providers, calls⟩).value.1 = (compute ⟨providers, others⟩).value.1 := by
  obtain ⟨answer, log, steady⟩ := repeatable
  obtain ⟨_, here⟩ := steady calls
  obtain ⟨_, there⟩ := steady others
  rw [here, there]

theorem providers_eq {compute : Registry → Logged (α × Registry)}
    (repeatable : Repeatable providers compute) (calls : CallCounts) :
    (compute ⟨providers, calls⟩).value.2.providers = providers := by
  obtain ⟨answer, log, steady⟩ := repeatable
  obtain ⟨_, here⟩ := steady calls
  rw [here]

end Repeatable

namespace Include

/-- However often the providers have been asked, lines expand to the same. -/
def Steady (expanding : Expanding α) : Prop :=
  ∃ answer log, ∀ calls, ∃ after, expanding.run calls = ⟨(answer, after), log⟩

private theorem steady_pure (answer : α) : Steady (pure answer) :=
  ⟨answer, [], fun calls => ⟨calls, rfl⟩⟩

private theorem steady_mark (problem : Problem) : Steady (Expanding.mark problem) :=
  ⟨[problem.marker], [.warning problem.message], fun calls => ⟨calls, rfl⟩⟩

theorem Steady.bind {first : Expanding α} {next : α → Expanding β} (steady : Steady first)
    (follows : ∀ answer, Steady (next answer)) : Steady (first >>= next) := by
  obtain ⟨answer, log, steady⟩ := steady
  obtain ⟨last, more, goesOn⟩ := follows answer
  refine ⟨last, log ++ more, fun calls => ?_⟩
  obtain ⟨between, here⟩ := steady calls
  obtain ⟨after, there⟩ := goesOn between
  exact ⟨after, by apply Logged.ext <;> simp [StateT.run_bind, here, there]⟩

/-- Asking a provider of a fixed text changes the counts only. -/
theorem Steady.ask {expanding : Expanding α} (steady : Steady expanding) (name : String) :
    Steady (do
      let (_, calls) := CallCounts.ask (← get) name
      set calls
      expanding) := by
  obtain ⟨answer, log, steady⟩ := steady
  refine ⟨answer, log, fun calls => ?_⟩
  obtain ⟨after, here⟩ := steady (CallCounts.ask calls name).2
  exact ⟨after, by apply Logged.ext <;> simp [here]⟩

private theorem steady_expandLines {registry : Registry} (fixed : registry.Fixed)
    (chain : List String)
    (pairs : List (Text × Text)) : Steady (expandLines registry.providers chain pairs) := by
  induction chain, pairs using expandLines.induct registry.providers with
  | case1 chain =>
    rw [expandLines]
    exact steady_pure []
  | case2 chain line code rest inside following =>
    rw [expandLines]
    refine .bind ?_ fun here => .bind following fun others => steady_pure _
    cases LineKind.ofLine code with
    | plain => exact steady_pure _
    | malformed => exact steady_mark _
    | splice name =>
      dsimp only
      split
      next => exact steady_mark _
      next idle =>
        split
        next => exact steady_mark _
        next provider found =>
          obtain ⟨text, rfl⟩ := fixed name provider found
          exact (inside name idle _ found 0).ask name

theorem repeatable_expand {registry : Registry} (fixed : registry.Fixed) (text : Text) :
    Repeatable registry.providers (expand text) := by
  obtain ⟨lines, log, steady⟩ := steady_expandLines fixed [] (linesWithCode text)
  refine ⟨Text.joinLines lines, log, fun calls => ?_⟩
  obtain ⟨after, here⟩ := steady calls
  exact ⟨after, by apply Logged.ext <;> simp [expand, here]⟩

end Include

end ShaderPipeline

import Aeterna.Context.Cache

namespace Aeterna.Context
open Lib (Stamped TimedCache Visit)
open ContextAssembler AssemblerConfig List

variable {f : Float}

def AssembledContext.isWithinBudget (context : AssembledContext f) : Bool := context.totalTokens ≤ context.tokenBudget

/-- A call of `assemble_with_rlm`: what the service makes of the query, the id drawn for its entry, and the call of
`assemble_context` to fall back on. -/
structure RlmCall (f : Float) where
  queryText : String
  executed : Except String String
  uuid : String
  standard : Visit (Call f)

/-- The queries that a service takes, if there is one. -/
abbrev RlmHandler : Type := Option (String → Bool)

namespace RlmCall
variable (handler : RlmHandler) (call : RlmCall f)

def synthesized : Option String :=
  if handler.any (fun shouldUseRlm => shouldUseRlm call.queryText) then call.executed.toOption else none

def budget (config : AssemblerConfig f) : UInt32 := call.standard.args.tokenBudget.getD config.defaultTokenBudget

end RlmCall

def rlmContext (queryEmbedding : Option (List f.F)) (budget : UInt32) (uuid content : String) : AssembledContext f :=
  let tokenCount := UInt32.ofNat (content.utf8ByteSize / 4)
  { view := ⟨content, ⟨"rlm_synthesized", false, false, false⟩⟩
    entries := [⟨"rlm-" ++ uuid, .project, content, tokenCount, .detailed, f.literal 0.95, queryEmbedding, .fresh⟩]
    totalTokens := tokenCount
    tokenBudget := budget
    layersIncluded := {MemoryLayer.project}
    queryEmbedding := queryEmbedding
    staleEntries := []
    hasStaleContent := false
    timedOut := false
    partialReturn := false }

section
variable (hashes : Hashes f) (handler : RlmHandler)

def ContextAssembler.assembleWithRlm (a : ContextAssembler f) (call : RlmCall f) :
    AssembledContext f × ContextAssembler f :=
  match call.synthesized handler with
  | some content =>
    (rlmContext call.standard.args.queryEmbedding (call.budget a.config) call.uuid content,
      { a with cache := a.cache.wait call.standard.looked })
  | none =>
    let assembled := a.assembleContext hashes call.standard
    (assembled.1.context, assembled.2)

def ContextAssembler.runWithRlm (a : ContextAssembler f) (calls : List (RlmCall f)) : ContextAssembler f :=
  calls.foldl (fun a call => (a.assembleWithRlm hashes handler call).2) a

structure AssembledContext.Fits (context : AssembledContext f) (budget : UInt32) : Prop where
  within : (context.entries.map (·.tokenCount.toNat)).sum ≤ budget.toNat
  total : context.totalTokens.toNat = (context.entries.map (·.tokenCount.toNat)).sum
  content : context.view.content = "\n\n".intercalate (context.entries.map (·.content))

def AssemblerConfig.FitsThroughout (config : AssemblerConfig f) (calls : List (RlmCall f)) : Prop :=
  ∀ earlier call later, calls = earlier ++ call :: later →
    let args := call.standard.args
    let returned := (((ContextAssembler.mk config {}).runWithRlm hashes handler earlier).assembleWithRlm hashes handler call).1
    (config.enableEarlyTermination = true →
      (config.assembleContextInternal hashes args.queryEmbedding args.sources args.tokenBudget).Fits
        (call.budget config)) ∧
      returned.isWithinBudget = true ∧ returned.tokenBudget = call.budget config

def AssemblerConfig.candidates (config : AssemblerConfig f) (call : Call f) : List (ContextEntry f) :=
  let scored := (call.sources.map (fun s => (s, config.computeRelevanceScore call.queryEmbedding s))).filter
    (fun s => f.le config.minRelevanceScore s.2)
  config.selectEntries hashes scored
    (distributeTokenBudget scored (call.tokenBudget.getD config.defaultTokenBudget))

def tokensWhere (condition : Nat → Bool) : Nat → List UInt32 → Nat
  | _, [] => 0
  | total, tokens :: rest =>
    (if condition (total + tokens.toNat) then tokens.toNat else 0) + tokensWhere condition (total + tokens.toNat) rest

def leadingTokens (budget : UInt32) (tokens : List UInt32) : Nat :=
  tokensWhere (fun total => total ≤ budget.toNat) 0 tokens

def wrappedTokens (budget : UInt32) (tokens : List UInt32) : Nat :=
  tokensWhere (fun total => 2 ^ 32 ≤ total ∧ total % 2 ^ 32 ≤ budget.toNat) 0 tokens

/-- Entries let back in by a sum that left 32 bits fit beside the first ones, and a synthesized text is short enough.
Without early termination nothing is dropped, and the sum of all that was selected is small. -/
def RlmCall.Small (config : AssemblerConfig f) (call : RlmCall f) : Prop :=
  let tokens := (config.candidates hashes call.standard.args).map (·.tokenCount)
  (if config.enableEarlyTermination then
      leadingTokens (call.budget config) tokens + wrappedTokens (call.budget config) tokens
    else (tokens.map UInt32.toNat).sum % 2 ^ 32) ≤ (call.budget config).toNat ∧
    ∀ content ∈ call.synthesized handler, content.utf8ByteSize / 4 % 2 ^ 32 ≤ (call.budget config).toNat

instance (config : AssemblerConfig f) (call : RlmCall f) : Decidable (call.Small hashes handler config) :=
  inferInstanceAs (Decidable (_ ≤ _ ∧ ∀ content ∈ call.synthesized handler, _ ≤ _))

end

section
variable {hashes : Hashes f}

theorem tokensWhere_split (budget : UInt32) (total : Nat) (tokens : List UInt32) :
    tokensWhere (fun total => total % 2 ^ 32 ≤ budget.toNat) total tokens =
      tokensWhere (fun total => total ≤ budget.toNat) total tokens +
        tokensWhere (fun total => 2 ^ 32 ≤ total ∧ total % 2 ^ 32 ≤ budget.toNat) total tokens := by
  have small := budget.toNat_lt
  induction tokens generalizing total with
  | nil => rfl
  | cons first rest ih =>
    simp only [tokensWhere, ih, decide_eq_true_eq]
    split_ifs <;> omega

theorem retainWithin_tokens {budget total : UInt32} {sum : Nat} (entries : List (ContextEntry f))
    (wraps : total.toNat = sum % 2 ^ 32) :
    ((retainWithin budget total entries).map (·.tokenCount.toNat)).sum =
      tokensWhere (fun total => total % 2 ^ 32 ≤ budget.toNat) sum (entries.map (·.tokenCount)) := by
  induction entries generalizing total sum with
  | nil => rfl
  | cons e rest ih =>
    have next : (total + e.tokenCount).toNat = (sum + e.tokenCount.toNat) % 2 ^ 32 := by
      rw [UInt32.toNat_add, wraps]
      omega
    simp only [retainWithin, map_cons, tokensWhere, UInt32.le_iff_toNat_le, next,
      decide_eq_true_eq]
    split
    · rw [map_cons, sum_cons, ih next]
    · rw [ih next, Nat.zero_add]

theorem toNat_sum (tokens : List UInt32) : tokens.sum.toNat = (tokens.map UInt32.toNat).sum % 2 ^ 32 := by
  induction tokens with
  | nil => rfl
  | cons first rest ih =>
    rw [sum_cons, UInt32.toNat_add, ih, map_cons, sum_cons]
    omega

theorem viewContents_all {budget used : UInt32} {entries : List (ContextEntry f)}
    (room : used.toNat + (entries.map (·.tokenCount.toNat)).sum ≤ budget.toNat) :
    viewContents budget used entries = entries.map (·.content) := by
  have small := budget.toNat_lt
  induction entries generalizing used with
  | nil => rfl
  | cons e rest ih =>
    rw [map_cons, sum_cons] at room
    have next : (used + e.tokenCount).toNat = used.toNat + e.tokenCount.toNat := by
      rw [UInt32.toNat_add]
      omega
    have fits : ¬ used + e.tokenCount > budget := by
      rw [gt_iff_lt, UInt32.lt_iff_toNat_lt, next]
      omega
    rw [viewContents, if_neg fits, ih (by rw [next]; omega), map_cons]

theorem fits_iff {config : AssemblerConfig f} (early : config.enableEarlyTermination = true) (call : Call f) :
    let budget := call.tokenBudget.getD config.defaultTokenBudget
    let tokens := (config.candidates hashes call).map (·.tokenCount)
    (config.assembleContextInternal hashes call.queryEmbedding call.sources call.tokenBudget).Fits budget ↔
      leadingTokens budget tokens + wrappedTokens budget tokens ≤ budget.toNat := by
  intro budget tokens
  have kept : (config.assembleContextInternal hashes call.queryEmbedding call.sources call.tokenBudget).entries =
      retainWithin budget 0 (config.candidates hashes call) := if_pos early
  have sum : ((retainWithin budget 0 (config.candidates hashes call)).map (·.tokenCount.toNat)).sum =
      leadingTokens budget tokens + wrappedTokens budget tokens := by
    have start : (0 : UInt32).toNat = 0 % 2 ^ 32 := rfl
    rw [retainWithin_tokens _ start, tokensWhere_split]
    rfl
  constructor
  · intro fits
    have within := fits.within
    rwa [kept, sum] at within
  · intro small
    rw [← sum] at small
    have bounded := budget.toNat_lt
    have reported : (config.assembleContextInternal hashes call.queryEmbedding call.sources call.tokenBudget).totalTokens =
        ((retainWithin budget 0 (config.candidates hashes call)).map (·.tokenCount)).sum := by
      rw [← kept]
      rfl
    have shown : (config.assembleContextInternal hashes call.queryEmbedding call.sources call.tokenBudget).view.content =
        "\n\n".intercalate (viewContents budget 0
          (retainWithin budget 0 (config.candidates hashes call))) := by
      rw [← kept]
      rfl
    constructor
    · rw [kept]
      exact small
    · rw [kept, reported, toNat_sum, map_map]
      exact Nat.mod_eq_of_lt (by simpa [Function.comp_def] using Nat.lt_of_le_of_lt small bounded)
    · rw [kept, shown, viewContents_all]
      simpa using small

end

section
variable {hashes : Hashes f} {handler : RlmHandler}

variable {context : AssembledContext f} {config : AssemblerConfig f}

theorem isWithinBudget_of_fits (fits : context.Fits context.tokenBudget) : context.isWithinBudget = true := by
  rw [AssembledContext.isWithinBudget, decide_eq_true_eq, UInt32.le_iff_toNat_le, fits.total]
  exact fits.within

theorem assembled_within {call : RlmCall f} (small : call.Small hashes handler config) :
    (config.assembleContextInternal hashes call.standard.args.queryEmbedding call.standard.args.sources
      call.standard.args.tokenBudget).isWithinBudget = true := by
  have selected := small.1
  cases early : config.enableEarlyTermination with
  | true =>
    rw [if_pos early] at selected
    exact isWithinBudget_of_fits ((fits_iff early call.standard.args).mpr selected)
  | false =>
    have all : (config.assembleContextInternal hashes call.standard.args.queryEmbedding call.standard.args.sources
        call.standard.args.tokenBudget).entries = config.candidates hashes call.standard.args :=
      if_neg (by rw [early]; exact Bool.false_ne_true)
    have reported : (config.assembleContextInternal hashes call.standard.args.queryEmbedding call.standard.args.sources
        call.standard.args.tokenBudget).totalTokens =
          ((config.candidates hashes call.standard.args).map (·.tokenCount)).sum := by
      rw [← all]
      rfl
    rw [if_neg (by rw [early]; exact Bool.false_ne_true), ← toNat_sum, ← reported] at selected
    exact decide_eq_true (UInt32.le_iff_toNat_le.mpr selected)

def ContextAssembler.Filed (a : ContextAssembler f) : Prop :=
  ∀ key entry, a.cache.entries key = some entry →
    entry.value.isWithinBudget = true ∧ entry.value.tokenBudget = key.tokenBudget

theorem filed_find {cache : TimedCache CacheKey (AssembledContext f)}
    (filed : (ContextAssembler.mk config cache).Filed) {ttl : Nat} {key : CacheKey}
    (found : cache.find ttl key = some context) :
    context.isWithinBudget = true ∧ context.tokenBudget = key.tokenBudget := by
  obtain ⟨entry, stored, rfl⟩ := Option.map_eq_some_iff.mp found
  exact filed key entry (Option.filter_eq_some_iff.mp stored).1

theorem assembleContext_config (a : ContextAssembler f) (call : Visit (Call f)) :
    (a.assembleContext hashes call).2.config = a.config := by
  unfold assembleContext
  split
  · dsimp only
    split <;> rfl
  · rfl

theorem runWithRlm_config (config : AssemblerConfig f) (calls : List (RlmCall f)) :
    ((ContextAssembler.mk config {}).runWithRlm hashes handler calls).config = config := by
  induction calls using reverseRecOn with
  | nil => rfl
  | append_singleton before call ih =>
    rw [runWithRlm, foldl_append, foldl_cons, foldl_nil,
      assembleWithRlm]
    split
    · exact ih
    · exact (assembleContext_config _ _).trans ih

theorem assembleContext_within {a : ContextAssembler f} (filed : a.Filed) (call : Visit (Call f))
    (fresh : (a.config.assembleContextInternal hashes call.args.queryEmbedding call.args.sources
      call.args.tokenBudget).isWithinBudget = true) :
    ((a.assembleContext hashes call).1.context.isWithinBudget = true ∧
      (a.assembleContext hashes call).1.context.tokenBudget =
        call.args.tokenBudget.getD a.config.defaultTokenBudget) ∧
      (a.assembleContext hashes call).2.Filed := by
  have made : (a.config.assemble hashes call.args).isWithinBudget = true := fresh
  cases caching : a.config.enableCaching with
  | false =>
    simp only [assembleContext, caching, Bool.false_eq_true, if_false]
    exact ⟨⟨made, rfl⟩, filed⟩
  | true =>
    have waited : (ContextAssembler.mk a.config (a.cache.wait call.looked)).Filed := filed
    simp only [assembleContext, caching, if_true]
    cases found : (a.cache.wait call.looked).find a.config.ttl (a.config.cacheKey hashes call.args) with
    | some context => exact ⟨filed_find waited found, filed⟩
    | none =>
      refine ⟨⟨made, rfl⟩, ?_⟩
      intro key entry stored
      by_cases same : key = a.config.cacheKey hashes call.args
      · subst same
        simp only [TimedCache.keep, Function.update_self, Option.some.injEq] at stored
        rw [← stored]
        exact ⟨made, rfl⟩
      · simp only [TimedCache.keep, Function.update_of_ne same] at stored
        exact filed key entry (Option.filter_eq_some_iff.mp stored).1

theorem rlmContext_within {queryEmbedding : Option (List f.F)} {budget : UInt32} {uuid content : String} :
    (rlmContext queryEmbedding budget uuid content).isWithinBudget = true ↔
      content.utf8ByteSize / 4 % 2 ^ 32 ≤ budget.toNat := by
  rw [AssembledContext.isWithinBudget, decide_eq_true_eq, UInt32.le_iff_toNat_le]
  exact Iff.rfl

theorem assembleWithRlm_within {a : ContextAssembler f} (filed : a.Filed) (call : RlmCall f)
    (small : call.Small hashes handler a.config) :
    ((a.assembleWithRlm hashes handler call).1.isWithinBudget = true ∧
      (a.assembleWithRlm hashes handler call).1.tokenBudget = call.budget a.config) ∧
      (a.assembleWithRlm hashes handler call).2.Filed := by
  unfold assembleWithRlm
  cases answer : call.synthesized handler with
  | some content => exact ⟨⟨rlmContext_within.mpr (small.2 content answer), rfl⟩, filed⟩
  | none => exact assembleContext_within filed call.standard (assembled_within small)

theorem runWithRlm_filed {calls : List (RlmCall f)} (small : ∀ call ∈ calls, call.Small hashes handler config) :
    ((ContextAssembler.mk config {}).runWithRlm hashes handler calls).Filed := by
  induction calls using reverseRecOn with
  | nil =>
    intro key entry stored
    cases stored
  | append_singleton before call ih =>
    have filed := ih (fun other among => small other (mem_append_left _ among))
    have last := small call (mem_append_right _ mem_cons_self)
    rw [runWithRlm, foldl_append]
    rw [← @runWithRlm_config f hashes handler config before] at last
    exact (assembleWithRlm_within filed call last).2

end

/-- The contexts of a run fit their budgets if every call is small, and with early termination only then. -/
theorem fitsThroughout_iff (hashes : Hashes f) (handler : RlmHandler) (config : AssemblerConfig f)
    (calls : List (RlmCall f)) :
    ((∀ call ∈ calls, call.Small hashes handler config) → config.FitsThroughout hashes handler calls) ∧
      (config.enableEarlyTermination = true → config.FitsThroughout hashes handler calls →
        ∀ call ∈ calls, call.Small hashes handler config) := by
  have same : ∀ earlier : List (RlmCall f),
      ((ContextAssembler.mk config {}).runWithRlm hashes handler earlier).config = config := runWithRlm_config config
  constructor
  · intro small earlier call later split
    have here := small call (by simp [split])
    have filed : ((ContextAssembler.mk config {}).runWithRlm hashes handler earlier).Filed :=
      runWithRlm_filed (fun other among => small other (by simp [split, among]))
    have returned := (assembleWithRlm_within filed call (by rwa [same])).1
    rw [same] at returned
    refine ⟨?_, returned⟩
    intro early
    have selected := here.1
    rw [if_pos early] at selected
    exact (fits_iff early call.standard.args).mpr selected
  · intro early fits call among
    obtain ⟨earlier, later, split⟩ := append_of_mem among
    obtain ⟨assembled, within, -⟩ := fits earlier call later split
    constructor
    · rw [if_pos early]
      exact (fits_iff early call.standard.args).mp (assembled early)
    · intro content answer
      rw [Option.mem_def] at answer
      simp only [assembleWithRlm, answer, same] at within
      exact rlmContext_within.mp within

section Samples

/-- A service asked about two things at once. -/
def comparing : RlmHandler := some (fun query => query = "compare all teams")

def asksService (query content : String) (budget : UInt32) : RlmCall exact where
  queryText := query
  executed := .ok content
  uuid := "7c9e6679"
  standard := ⟨⟨none, [sentence "acme" "Acme buys Globex"], some budget, 1⟩, 10 ^ 9, 10 ^ 6, 10 ^ 6⟩

theorem short_answers_fit : (AssemblerConfig.default exact).FitsThroughout unhashed comparing
    [asksService "compare all teams" "All teams use Rust." 10, asksService "show the plan" "" 30] := by
  apply (fitsThroughout_iff unhashed comparing (AssemblerConfig.default exact) _).1
  decide +kernel

/-- A synthesized text of twelve tokens is returned for a budget of ten. -/
theorem long_answer_returned : ¬ (AssemblerConfig.default exact).FitsThroughout unhashed comparing
    [asksService "compare all teams" "Every team writes its services in Rust, with tests." 10] := by
  intro fits
  obtain ⟨-, within, -⟩ := fits [] _ [] rfl
  revert within
  decide +kernel

end Samples

end Aeterna.Context

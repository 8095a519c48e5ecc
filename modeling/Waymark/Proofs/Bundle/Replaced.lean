import Waymark.Proofs.Bundle.Once
/-!
# What an import is replaced with

A bundler asks the plugin about an import with its specifier and its kind, and keeps the
answer under the specifier alone.  So an import is replaced as the first import of its
module that has the same specifier is resolved, whatever its own kind is.  The two agree
where a specifier is imported in one way only; where it is imported both statically and
dynamically, the later imports follow the first one: a dynamic import leads to a copy if
a static one stands before it, and a static import stays outside of the bundle if a
dynamic one does.

The invariant of the planning is an equation: what is found for a specifier is what the
first mention of it, among those planned so far, is resolved to (`Follows`).

## Main results

* `planMention_follows`, `planAll_follows` — the equation, for one import and for all.
* `planAll_replaces` — each import of a module is replaced as the first one like it is resolved.
* `planAll_mixes_kinds` — a dynamic import that is replaced as a static one, and the reverse.
-/

namespace Waymark

namespace Script

/-- Only what the imports of a module are replaced with matters. -/
theorem replaceMentions_congr {f g : Mention → List Char} {source : List Char}
    (h : ∀ m ∈ mentions source, f m = g m) :
    replaceMentions f source = replaceMentions g source := by
  apply List.flatMap_congr
  intro piece hpiece
  cases piece with
  | char c => rfl
  | mention m => exact h m (List.mem_filterMap.2 ⟨.mention m, hpiece, rfl⟩)

/-- The text of an import tells the specifier. -/
theorem Mention.withSpecifier_inj {m : Mention} {a b : List Char} :
    m.withSpecifier a = m.withSpecifier b ↔ a = b := by
  constructor
  · intro h
    unfold withSpecifier at h
    exact (List.cons.inj (List.append_cancel_left (List.append_cancel_right h))).2
  · exact congrArg m.withSpecifier

end Script

namespace Bundle

variable {ε σ : Type}

/-! ## The import that decides -/

/-- The text that stands for an import once it is resolved. -/
def targetOf (resolve : Request → Resolution) (module : Pending) (m : Script.Mention) : String :=
  match resolve (module.request m) with
  | .external path => path
  | .resolved path .file => path
  | .resolved path .http => relativeImport module.out (copyOf path)

/-- The first of some imports with a specifier. -/
def firstWith (ms : List Script.Mention) (specifier : String) : Option Script.Mention :=
  ms.find? fun m => String.ofList m.specifier = specifier

/-- The first import of a module with the specifier of another one. -/
def leading (module : Pending) (m : Script.Mention) : Script.Mention :=
  (firstWith (Script.mentions module.contents.toList) (String.ofList m.specifier)).getD m

theorem isSome_firstWith {ms : List Script.Mention} {m : Script.Mention} (h : m ∈ ms) :
    (firstWith ms (String.ofList m.specifier)).isSome = true := by
  rw [firstWith, List.find?_isSome]
  exact ⟨m, h, decide_eq_true rfl⟩

theorem firstWith_eq_leading {module : Pending} {m : Script.Mention}
    (h : m ∈ Script.mentions module.contents.toList) :
    firstWith (Script.mentions module.contents.toList) (String.ofList m.specifier) =
      some (leading module m) := by
  obtain ⟨first, hfirst⟩ := Option.isSome_iff_exists.1 (isSome_firstWith h)
  rw [leading, hfirst, Option.getD_some]

theorem specifier_leading {module : Pending} {m : Script.Mention}
    (h : m ∈ Script.mentions module.contents.toList) :
    leading module m ∈ Script.mentions module.contents.toList ∧
      (leading module m).specifier = m.specifier := by
  have hfirst := firstWith_eq_leading h
  refine ⟨List.mem_of_find?_eq_some hfirst, ?_⟩
  have hsame := List.find?_some hfirst
  exact String.ofList_injective (of_decide_eq_true hsame)

/-- Imports of one specifier and one kind are resolved alike. -/
theorem targetOf_congr {resolve : Request → Resolution} {module : Pending} {m m' : Script.Mention}
    (hspecifier : m'.specifier = m.specifier) (hkind : kindOf m' = kindOf m) :
    targetOf resolve module m' = targetOf resolve module m := by
  have hrequest : module.request m' = module.request m := by
    rw [Pending.request, Pending.request, hspecifier, hkind]
  rw [targetOf, targetOf, hrequest]

/-! ## Planning -/

/-- What is found in a plan for a specifier is what the first of the imports with it means. -/
def Follows (resolve : Request → Resolution) (module : Pending) (done : List Script.Mention)
    (plan : Plan) : Prop :=
  ∀ specifier, plan.replacements.lookup specifier =
    (firstWith done specifier).map (targetOf resolve module)

section
variable {plugin : Plugin (ExceptT ε (StateM σ))} {unloaded : String → ε} {module : Pending}
  {plan plan' : Plan} {s s' : σ}

/-- Copying a module replaces nothing. -/
theorem replacements_of_planCopy {path : String}
    (h : (planCopy plugin unloaded plan path).run.run s = (.ok plan', s')) :
    plan'.replacements = plan.replacements := by
  unfold planCopy at h
  split at h
  · obtain ⟨hplan, -⟩ := Prod.mk.inj h
    rw [Except.ok.inj hplan]
  · obtain ⟨loaded, s₁, -, hrest⟩ := exists_of_run_bind h
    cases loaded with
    | none => cases (Prod.mk.inj hrest).1
    | some loaded =>
      obtain ⟨hplan, -⟩ := Prod.mk.inj hrest
      obtain rfl := Except.ok.inj hplan
      rfl

/-- An import is planned with what it means, unless its specifier has been planned before. -/
theorem replacements_of_planMention {m : Script.Mention}
    (h : (planMention plugin unloaded module plan m).run.run s = (.ok plan', s')) :
    plan'.replacements =
      if (plan.replacements.lookup (String.ofList m.specifier)).isSome then plan.replacements
      else plan.replacements ++
        [(String.ofList m.specifier, targetOf plugin.resolve module m)] := by
  unfold planMention at h
  split at h
  · rename_i hold
    obtain ⟨hplan, -⟩ := Prod.mk.inj h
    obtain rfl := Except.ok.inj hplan
    rw [if_pos hold]
  · rename_i hnew
    rw [if_neg hnew, targetOf]
    cases hresolve : plugin.resolve (module.request m) with
    | external path =>
      rw [hresolve] at h
      obtain ⟨hplan, -⟩ := Prod.mk.inj h
      obtain rfl := Except.ok.inj hplan
      rfl
    | resolved path origin =>
      rw [hresolve] at h
      cases origin with
      | file =>
        obtain ⟨hplan, -⟩ := Prod.mk.inj h
        obtain rfl := Except.ok.inj hplan
        rfl
      | http =>
        obtain ⟨copied, s₁, hcopied, hrest⟩ := exists_of_run_bind h
        obtain ⟨hplan, -⟩ := Prod.mk.inj hrest
        obtain rfl := Except.ok.inj hplan
        rw [← replacements_of_planCopy hcopied]
        rfl

theorem planMention_follows {done : List Script.Mention} {m : Script.Mention}
    (hfollows : Follows plugin.resolve module done plan)
    (h : (planMention plugin unloaded module plan m).run.run s = (.ok plan', s')) :
    Follows plugin.resolve module (done ++ [m]) plan' := by
  intro specifier
  rw [replacements_of_planMention h, firstWith, List.find?_append]
  have hdone := hfollows specifier
  have hown := hfollows (String.ofList m.specifier)
  rw [firstWith] at hdone hown
  split
  · rename_i hold
    rw [hdone]
    by_cases hspecifier : String.ofList m.specifier = specifier
    · -- An import before it has the same specifier, and is found first.
      subst hspecifier
      rw [hown, Option.isSome_map] at hold
      rw [Option.or_of_isSome hold]
    · rw [List.find?_singleton, if_neg (by simpa using hspecifier), Option.or_none]
  · rename_i hnew
    rw [List.lookup_append, hdone]
    by_cases hspecifier : String.ofList m.specifier = specifier
    · subst hspecifier
      rw [hown, Option.isSome_map, Bool.not_eq_true, Option.isSome_eq_false_iff,
        Option.isNone_iff_eq_none] at hnew
      rw [hnew, List.lookup_cons_self, List.find?_singleton, if_pos (decide_eq_true rfl)]
      rfl
    · rw [List.find?_singleton, if_neg (by simpa using hspecifier), Option.or_none,
        List.lookup_cons, beq_false_of_ne (Ne.symm hspecifier), List.lookup_nil, Option.or_none]

/-- Planning imports keeps to the first one of each specifier. -/
theorem planAll_follows {done ms : List Script.Mention}
    (hfollows : Follows plugin.resolve module done plan)
    (h : (planAll plugin unloaded module plan ms).run.run s = (.ok plan', s')) :
    Follows plugin.resolve module (done ++ ms) plan' := by
  induction ms generalizing done plan s with
  | nil =>
    obtain ⟨hplan, -⟩ := Prod.mk.inj h
    obtain rfl := Except.ok.inj hplan
    rwa [List.append_nil]
  | cons m ms ih =>
    obtain ⟨next, s₁, hnext, hrest⟩ := exists_of_run_bind h
    rw [List.append_cons]
    exact ih (planMention_follows hfollows hnext) hrest

/-- An import of a module is replaced as the first one like it is resolved. -/
theorem replaceMention_of_follows
    (h : Follows plugin.resolve module (Script.mentions module.contents.toList) plan)
    {m : Script.Mention} (hm : m ∈ Script.mentions module.contents.toList) :
    replaceMention plan.replacements m =
      m.withSpecifier (targetOf plugin.resolve module (leading module m)).toList := by
  rw [replaceMention, h, firstWith_eq_leading hm]
  rfl

end

/-- When the imports of a module have been planned, its text is written with each import
replaced as the first one with its specifier is resolved, with the kind that that one has.  This
is what the import itself is resolved to exactly if the two have the same target, as they have
where all imports of the specifier are of one kind. -/
theorem planAll_replaces (plugin : Plugin (ExceptT ε (StateM σ))) (unloaded : String → ε)
    (module : Pending) (seen : List String) {s s' : σ} {plan : Plan}
    (hplan : (planAll plugin unloaded module ⟨[], seen, []⟩
      (Script.mentions module.contents.toList)).run.run s = (.ok plan, s')) :
    rewriteModule plan module.contents =
        String.ofList (Script.replaceMentions
          (fun m => m.withSpecifier (targetOf plugin.resolve module (leading module m)).toList)
          module.contents.toList) ∧
      ∀ m ∈ Script.mentions module.contents.toList,
        (replaceMention plan.replacements m =
            m.withSpecifier (targetOf plugin.resolve module m).toList ↔
          targetOf plugin.resolve module (leading module m) = targetOf plugin.resolve module m) ∧
        ((∀ m' ∈ Script.mentions module.contents.toList, m'.specifier = m.specifier →
            kindOf m' = kindOf m) →
          replaceMention plan.replacements m =
            m.withSpecifier (targetOf plugin.resolve module m).toList) := by
  have hstart : Follows plugin.resolve module [] ⟨[], seen, []⟩ := fun _ => rfl
  have hfollows := planAll_follows hstart hplan
  rw [List.nil_append] at hfollows
  refine ⟨congrArg String.ofList (Script.replaceMentions_congr fun m hm =>
    replaceMention_of_follows hfollows hm), ?_⟩
  intro m hm
  have hreplaced := replaceMention_of_follows hfollows hm
  constructor
  · rw [hreplaced, Script.Mention.withSpecifier_inj, String.toList_inj]
  · intro hkinds
    obtain ⟨hmem, hspecifier⟩ := specifier_leading hm
    rw [hreplaced, targetOf_congr hspecifier (hkinds _ hmem hspecifier)]

/-! ## A specifier imported in both ways -/

/-- A plugin that copies the modules of one server, all of them empty. -/
def copyingPlugin : Plugin (ExceptT Unit (StateM Unit)) :=
  plainPolicy.plugin fun _ => pure ⟨"", none⟩

/-- A program before it is bundled. -/
def program (contents : String) : Pending := ⟨"server.js", contents, none, .file⟩

/-- How the imports of a program are planned. -/
def planProgram (contents : String) : Except Unit Plan × Unit :=
  (planAll copyingPlugin (fun _ => ()) (program contents) ⟨[], [], []⟩
    (Script.mentions contents.toList)).run.run ()

/-- The program as it is written. -/
def rewriteProgram (contents : String) : Option String :=
  (planProgram contents).1.toOption.map (rewriteModule · contents)

/-- What the imports of a program are resolved to, one by one. -/
def resolveProgram (contents : String) : List (ImportKind × Resolution) :=
  (Script.mentions contents.toList).map fun m =>
    (kindOf m, copyingPlugin.resolve ((program contents).request m))

/-- A program that imports a module twice, the second time when it is asked to. -/
def lazyAgain : String := "import \"http://h/a.ts\";\nconst a = import(\"http://h/a.ts\");"

theorem exists_planProgram {contents text : String} (h : rewriteProgram contents = some text) :
    ∃ plan, planProgram contents = (.ok plan, ()) ∧ rewriteModule plan contents = text := by
  obtain ⟨plan, hplan, htext⟩ := Option.map_eq_some_iff.1 h
  exact ⟨plan, Prod.ext (eq_ok_of_toOption hplan) rfl, htext⟩

/-- The dynamic import follows the static one before it. -/
theorem planAll_replaces_lazy :
    ∃ plan, planProgram lazyAgain = (.ok plan, ()) ∧
      rewriteModule plan lazyAgain =
        "import \"./_vendor/h/a.ts.js\";\nconst a = import(\"./_vendor/h/a.ts.js\");" ∧
      rewriteModule plan lazyAgain =
        String.ofList (Script.replaceMentions
          (fun m => m.withSpecifier
            (targetOf copyingPlugin.resolve (program lazyAgain)
              (leading (program lazyAgain) m)).toList)
          lazyAgain.toList) := by
  have hrewritten : rewriteProgram lazyAgain =
      some "import \"./_vendor/h/a.ts.js\";\nconst a = import(\"./_vendor/h/a.ts.js\");" := by
    decide +kernel
  obtain ⟨plan, hplan, htext⟩ := exists_planProgram hrewritten
  have hreplaced := planAll_replaces copyingPlugin (fun _ => ()) (program lazyAgain) [] hplan
  exact ⟨plan, hplan, htext, hreplaced.1⟩

/-- A module that is imported in both ways is imported in one way in the bundle: the dynamic import
that is to stay outside leads to the copy, and the static import that is to be copied stays
outside, as the one or the other comes first. -/
theorem planAll_mixes_kinds :
    (resolveProgram "import \"http://h/a.ts\";\nimport(\"http://h/a.ts\");" =
        [(.static, .resolved "http://h/a.ts" .http), (.dynamic, .external "http://h/a.ts")] ∧
      rewriteProgram "import \"http://h/a.ts\";\nimport(\"http://h/a.ts\");" =
        some "import \"./_vendor/h/a.ts.js\";\nimport(\"./_vendor/h/a.ts.js\");") ∧
    resolveProgram "import(\"http://h/a.ts\");\nimport \"http://h/a.ts\";" =
        [(.dynamic, .external "http://h/a.ts"), (.static, .resolved "http://h/a.ts" .http)] ∧
      rewriteProgram "import(\"http://h/a.ts\");\nimport \"http://h/a.ts\";" =
        some "import(\"http://h/a.ts\");\nimport \"http://h/a.ts\";" := by
  refine ⟨⟨?_, ?_⟩, ?_, ?_⟩
  · decide +kernel
  · decide +kernel
  · decide +kernel
  · decide +kernel

end Bundle
end Waymark

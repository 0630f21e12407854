import DrillPost.Console.Run
import DrillPost.Proofs.Text.Separation
import Mathlib.Data.List.Basic
import Mathlib.Data.List.Induction

/-!
# What a log filter lets through

* `Directive.yieldsTo_iff`: directives are ordered by the length of the name they ask for, and then
  by whether they ask for a field;
* `Filter.Decides`: which directive decides for a source, said of the list as a whole;
* `Filter.decisive_eq_some_iff`, `Filter.decisive_eq_none_iff`, `Filter.admits_iff`: the walk over
  the list finds that directive, and the filter lets through what it says;
* `Filter.decisive_append`, `Filter.parse_append_comma`: of two filters one after the other, or
  described with a comma between them, the stronger directive decides;
* `Filter.admits_choose_none`: without a description one level stands for all sources;
* `written_sublist_written`: then the more is asked for the more records of a run are written.
-/

namespace DrillPost.Log

/-! ## How particular a directive is -/

namespace Directive

theorem yieldsTo_iff {a b : Directive} :
    a.yieldsTo b = true ↔
      a.beginning.length < b.beginning.length ∨
      a.beginning.length = b.beginning.length ∧ (a.field.isSome → b.field.isSome) := by
  rw [yieldsTo, Bool.or_eq_true, Bool.and_eq_true, Bool.or_eq_true, decide_eq_true_eq, beq_iff_eq,
    Option.isNone_iff_eq_none, ← Option.not_isSome_iff_eq_none, ← imp_iff_not_or]

theorem yieldsTo_refl (a : Directive) : a.yieldsTo a = true := yieldsTo_iff.2 (.inr ⟨rfl, id⟩)

theorem yieldsTo_trans {a b c : Directive} (hab : a.yieldsTo b = true) (hbc : b.yieldsTo c = true) :
    a.yieldsTo c = true := by
  rw [yieldsTo_iff] at hab hbc ⊢
  grind

theorem yieldsTo_of_not {a b : Directive} (h : ¬ a.yieldsTo b = true) : b.yieldsTo a = true := by
  rw [yieldsTo_iff] at h ⊢
  grind

end Directive

namespace Filter

/-- The directive that decides for a source: it applies, those in front of it that apply are no more
particular, and those behind it that apply are less so. -/
structure Decides (f : Filter) (s : Source) (d : Directive) : Prop where
  applies : d.applies s = true
  /-- The place of the directive in the list. -/
  place : ∃ before after, f = before ++ d :: after ∧
    (∀ e ∈ before, e.applies s = true → e.yieldsTo d = true) ∧
    ∀ e ∈ after, e.applies s = true → ¬ d.yieldsTo e = true

variable {f g : Filter} {s : Source} {d e : Directive}

/-! ## The walk over the list -/

@[simp] theorem decisive_nil (s : Source) : decisive [] s = none := rfl

theorem decisive_concat (f : Filter) (s : Source) (d : Directive) :
    decisive (f ++ [d]) s =
      if d.applies s then some ((decisive f s).elim d fun b => stronger b d) else decisive f s := by
  unfold decisive
  rw [List.filter_append, List.foldl_append]
  split
  case isTrue applies =>
    simp only [List.filter_cons, applies, if_true, List.filter_nil, List.foldl_cons, List.foldl_nil]
    cases List.foldl _ none _ <;> rfl
  case isFalse applies =>
    simp only [List.filter_cons, applies, Bool.false_eq_true, if_false, List.filter_nil,
      List.foldl_nil]

theorem Decides.mem (h : f.Decides s d) : d ∈ f := by
  obtain ⟨before, after, rfl, -⟩ := h.place
  simp

/-- Every directive that applies yields to the one that decides. -/
theorem Decides.yieldsTo (h : f.Decides s d) (he : e ∈ f) (applies : e.applies s = true) :
    e.yieldsTo d = true := by
  obtain ⟨before, after, rfl, front, behind⟩ := h.place
  simp only [List.mem_append, List.mem_cons] at he
  rcases he with he | rfl | he
  · exact front e he applies
  · exact e.yieldsTo_refl
  · exact Directive.yieldsTo_of_not (behind e he applies)

/-- Directives behind it that apply and are less particular leave the decision as it is. -/
theorem Decides.append_right (h : f.Decides s d)
    (hg : ∀ e ∈ g, e.applies s = true → ¬ d.yieldsTo e = true) : Decides (f ++ g) s d := by
  obtain ⟨before, after, rfl, front, behind⟩ := h.place
  refine ⟨h.applies, before, after ++ g, by simp, front, fun e he applies => ?_⟩
  rcases List.mem_append.1 he with he | he
  · exact behind e he applies
  · exact hg e he applies

/-- So do directives in front of it that are no more particular. -/
theorem Decides.append_left (h : g.Decides s e)
    (hf : ∀ d ∈ f, d.applies s = true → d.yieldsTo e = true) : Decides (f ++ g) s e := by
  obtain ⟨before, after, rfl, front, behind⟩ := h.place
  refine ⟨h.applies, f ++ before, after, by simp, fun d hd applies => ?_, behind⟩
  rcases List.mem_append.1 hd with hd | hd
  · exact hf d hd applies
  · exact front d hd applies

/-- Of the directives that decide in two lists the stronger one decides in both together. -/
theorem Decides.append (hd : f.Decides s d) (he : g.Decides s e) :
    Decides (f ++ g) s (stronger d e) := by
  unfold stronger
  split
  case isTrue yields =>
    exact he.append_left fun x hx applies =>
      Directive.yieldsTo_trans (hd.yieldsTo hx applies) yields
  case isFalse stays =>
    exact hd.append_right fun x hx applies yields =>
      stays (Directive.yieldsTo_trans yields (he.yieldsTo hx applies))

theorem decides_singleton (applies : e.applies s = true) : Decides [e] s e :=
  ⟨applies, [], [], rfl, by simp, by simp⟩

theorem eq_or_mem_of_append_cons {α : Type} {before after before' after' : List α} {x y : α}
    (h : before ++ x :: after = before' ++ y :: after') :
    x = y ∨ y ∈ after ∧ x ∈ before' ∨ x ∈ after' ∧ y ∈ before := by
  rcases List.append_eq_append_iff.1 h with ⟨between, rfl, rest⟩ | ⟨between, rfl, rest⟩
  all_goals cases between with
  | nil => simp_all
  | cons z between =>
    simp only [List.cons_append, List.cons.injEq] at rest
    obtain ⟨rfl, rfl⟩ := rest
    simp

/-- No two directives decide for one source: the one in front would yield to the other, which
stands behind it. -/
theorem Decides.unique (hd : f.Decides s d) (he : f.Decides s e) : d = e := by
  obtain ⟨before, after, rfl, front, behind⟩ := hd.place
  obtain ⟨before', after', split, front', behind'⟩ := he.place
  rcases eq_or_mem_of_append_cons split with same | ⟨later, earlier⟩ | ⟨later, earlier⟩
  · exact same
  · exact absurd (front' d earlier hd.applies) (behind e later he.applies)
  · exact absurd (front e earlier he.applies) (behind' d later hd.applies)

theorem decisive_spec (f : Filter) (s : Source) :
    (decisive f s = none → ∀ e ∈ f, ¬ e.applies s = true) ∧
      ∀ d, decisive f s = some d → Decides f s d := by
  induction f using List.reverseRecOn with
  | nil => simp
  | append_singleton f e ih =>
    obtain ⟨none_applies, decides⟩ := ih
    rw [decisive_concat]
    split
    case isTrue applies =>
      refine ⟨by simp, fun d found => ?_⟩
      cases best : decisive f s with
      | none =>
        rw [best] at found
        cases found
        exact (decides_singleton applies).append_left fun x hx ha =>
          absurd ha (none_applies best x hx)
      | some b =>
        rw [best] at found
        cases found
        exact (decides b best).append (decides_singleton applies)
    case isFalse applies =>
      have silent : ∀ x ∈ [e], ¬ x.applies s = true := by simpa using applies
      refine ⟨fun none_found x hx => ?_, fun d found => ?_⟩
      · rcases List.mem_append.1 hx with hx | hx
        · exact none_applies none_found x hx
        · exact silent x hx
      · exact (decides d found).append_right fun x hx ha => absurd ha (silent x hx)

theorem decisive_eq_none_iff : decisive f s = none ↔ ∀ e ∈ f, ¬ e.applies s = true := by
  refine ⟨(decisive_spec f s).1, fun h => ?_⟩
  cases found : decisive f s with
  | none => rfl
  | some d =>
    have decides := (decisive_spec f s).2 d found
    exact absurd decides.applies (h d decides.mem)

/-- **The directive that decides.** The walk over a filter finds it whenever there is one. -/
theorem decisive_eq_some_iff : decisive f s = some d ↔ Decides f s d := by
  refine ⟨(decisive_spec f s).2 d, fun h => ?_⟩
  cases found : decisive f s with
  | none => exact absurd h.applies (decisive_eq_none_iff.1 found d h.mem)
  | some b => rw [((decisive_spec f s).2 b found).unique h]

/-- **What a filter lets through.** -/
theorem admits_iff {r : Record} :
    admits f r = true ↔ ∃ d limit, Decides f r.source d ∧ d.limit = some limit ∧
      limit.covers r.level = true := by
  unfold admits
  constructor
  · intro h
    split at h
    · rename_i limit found
      obtain ⟨d, decisive, hl⟩ := Option.bind_eq_some_iff.1 found
      exact ⟨d, limit, decisive_eq_some_iff.1 decisive, hl, h⟩
    · cases h
  · rintro ⟨d, limit, decides, hl, covers⟩
    rw [decisive_eq_some_iff.2 decides, Option.bind_some, hl]
    exact covers

/-- **Two filters one after the other.** Each source gets the more particular of the directives that
decide in the two, and that of the second one between equals. -/
theorem decisive_append (f g : Filter) (s : Source) :
    decisive (f ++ g) s = (decisive f s).merge stronger (decisive g s) := by
  cases left : decisive f s with
  | none =>
    have silent := decisive_eq_none_iff.1 left
    cases right : decisive g s with
    | none =>
      refine decisive_eq_none_iff.2 fun x hx => ?_
      exact (List.mem_append.1 hx).elim (silent x) (decisive_eq_none_iff.1 right x)
    | some e =>
      exact decisive_eq_some_iff.2 <|
        (decisive_eq_some_iff.1 right).append_left fun x hx ha => absurd ha (silent x hx)
  | some d =>
    have decides := decisive_eq_some_iff.1 left
    cases right : decisive g s with
    | none =>
      exact decisive_eq_some_iff.2 <|
        decides.append_right fun x hx ha => absurd ha (decisive_eq_none_iff.1 right x hx)
    | some e => exact decisive_eq_some_iff.2 (decides.append (decisive_eq_some_iff.1 right))

/-! ## Descriptions -/

/-- **Two descriptions with a comma between them** describe the two filters one after the other. -/
theorem parse_append_comma (t u : Text) :
    parse (t ++ ',' :: u) = (do return (← parse t) ++ (← parse u)) := by
  rw [parse, splitOn_append_sep, List.filter_append, List.mapM_append]
  rfl

/-- A description without commas is one directive. -/
theorem parse_of_notMem {t : Text} (h : ',' ∉ t) (nonempty : t ≠ []) :
    parse t = (Directive.read t).map ([·]) := by
  rw [parse, splitOn_of_notMem h, List.filter_cons_of_pos (by simpa using nonempty),
    List.filter_nil]
  cases found : Directive.read t <;> simp [found]

example :
    (parse "warn,e2g_settings=debug".toList).map (fun f =>
      (f.admits ⟨.debug, .settings, ""⟩, f.admits ⟨.debug, .converter, ""⟩)) =
    some (true, false) := by
  decide +kernel

/-- **Without a description** one level stands for all sources. -/
theorem admits_choose_none (limit : Level) (r : Record) :
    admits (choose none limit) r = limit.covers r.level := by
  have decides : Decides [{ limit := some limit }] r.source { limit := some limit } :=
    decides_singleton rfl
  have found : decisive (choose none limit) r.source = some { limit := some limit } :=
    decisive_eq_some_iff.2 decides
  rw [admits, found, Option.bind_some]

end Filter

end DrillPost.Log

namespace DrillPost.Console

theorem written_none (o : Outcome) (a : Arguments) :
    o.written a none = o.log.filter fun r => a.verbosity.level.covers r.level :=
  List.filter_congr fun r _ => Log.Filter.admits_choose_none a.verbosity.level r

/-- **The more is asked for, the more is written**, as long as no filter is described. -/
theorem written_sublist_written (o : Outcome) {a b : Arguments}
    (h : a.verbosity.level.rank ≤ b.verbosity.level.rank) :
    (o.written a none).Sublist (o.written b none) := by
  rw [written_none, written_none]
  refine List.monotone_filter_right o.log fun r covered => ?_
  simp only [Log.Level.covers, decide_eq_true_eq] at covered ⊢
  exact Nat.le_trans covered h

end DrillPost.Console

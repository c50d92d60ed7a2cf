import CallCheck.Call.Resolve
import CallCheck.Greeter.Declaration
import CallCheck.Proofs.Schema.Linking
import Mathlib.Data.List.TakeWhile

/-!
# Spellings of a method

A text is cut into the names of a service and a method, and the two are looked up in a pool. Names
have no separators in them but the dots of a package, so few texts come to a given method.

## Two dots in front

Reading a target ignores one dot or slash in front. Looking up a service ignores a dot in front, as
for every full name. So a text may have a separator and a dot in front of the name, and
`Schema.Method.spellings` has ten texts: one for each of five beginnings and each of two separators.

## Main statement

`Schema.method_eq_ok_iff`: in a linked pool whose names are identifiers, these ten texts come to the
method, and no other text does.
-/

namespace CallCheck

namespace Call.Target

/-! ## Cutting a text -/

variable {c : Char} {cs before after : List Char}

theorem cutFirst_append (hbefore : c ∉ before) :
    cutFirst c (before ++ c :: after) = some (before, after) := by
  induction before with
  | nil => exact if_pos rfl
  | cons a before ih =>
    obtain ⟨hne, hbefore⟩ := not_or.1 (mt List.mem_cons.2 hbefore)
    rw [List.cons_append, cutFirst, if_neg (Ne.symm hne), ih hbefore, Option.map_some]

theorem cutFirst_eq_some_iff :
    cutFirst c cs = some (before, after) ↔ cs = before ++ c :: after ∧ c ∉ before := by
  refine ⟨fun h ↦ ?_, fun ⟨hcs, hbefore⟩ ↦ hcs ▸ cutFirst_append hbefore⟩
  induction cs generalizing before with
  | nil => cases h
  | cons a cs ih =>
    rw [cutFirst] at h
    split at h
    · rename_i ha
      obtain ⟨rfl, rfl⟩ := Prod.mk.inj (Option.some.inj h)
      exact ⟨ha ▸ rfl, List.not_mem_nil⟩
    · rename_i ha
      obtain ⟨⟨before', after'⟩, hcut, heq⟩ := Option.map_eq_some_iff.1 h
      obtain ⟨rfl, rfl⟩ := Prod.mk.inj heq
      obtain ⟨rfl, hbefore⟩ := ih hcut
      exact ⟨rfl, List.not_mem_cons_of_ne_of_not_mem (Ne.symm ha) hbefore⟩

theorem cutLast_eq_some_iff :
    cutLast c cs = some (before, after) ↔ cs = before ++ c :: after ∧ c ∉ after := by
  have hreverse :
      cs = before ++ c :: after ↔ cs.reverse = after.reverse ++ c :: before.reverse := by
    rw [← List.reverse_inj]
    simp
  rw [hreverse, ← List.mem_reverse, ← cutFirst_eq_some_iff, cutLast, Option.map_eq_some_iff]
  constructor
  · rintro ⟨⟨after', before'⟩, hcut, heq⟩
    obtain ⟨rfl, rfl⟩ := Prod.mk.inj heq
    rwa [List.reverse_reverse, List.reverse_reverse]
  · intro hcut
    exact ⟨_, hcut, by dsimp only; rw [List.reverse_reverse, List.reverse_reverse]⟩

theorem cut_eq_ok_iff : cut cs = .ok (before, after) ↔
    (cs = before ++ '.' :: after ∧ '/' ∉ cs ∧ '.' ∉ after) ∨
      (cs = before ++ '/' :: after ∧ '/' ∉ before ∧ '/' ∉ after) := by
  have helim (o : Option (List Char × List Char)) :
      o.elim (.error TargetFault.noSeparator) .ok = Except.ok (before, after) ↔
        o = some (before, after) := by
    cases o <;> simp
  rw [cut]
  split
  · rename_i hcount
    have hnone : '/' ∉ cs := List.count_eq_zero.1 hcount
    rw [helim, cutLast_eq_some_iff]
    constructor
    · rintro ⟨hcs, hafter⟩
      exact .inl ⟨hcs, hnone, hafter⟩
    · rintro (⟨hcs, -, hafter⟩ | ⟨rfl, -⟩)
      · exact ⟨hcs, hafter⟩
      · exact absurd (by simp) hnone
  · rename_i hcount
    rw [helim, cutFirst_eq_some_iff]
    constructor
    · rintro ⟨rfl, hbefore⟩
      refine .inr ⟨rfl, hbefore, List.count_eq_zero.1 ?_⟩
      simpa [List.count_eq_zero.2 hbefore] using hcount
    · rintro (⟨-, hnone, -⟩ | ⟨hcs, hbefore, -⟩)
      · rw [List.count_eq_zero.2 hnone] at hcount
        cases hcount
      · exact ⟨hcs, hbefore⟩
  · rename_i hzero hone
    refine iff_of_false (by simp) ?_
    rintro (⟨-, hnone, -⟩ | ⟨rfl, hbefore, hafter⟩)
    · exact hzero (List.count_eq_zero.2 hnone)
    · exact hone (by simp [List.count_eq_zero.2 hbefore, List.count_eq_zero.2 hafter])

theorem ofChars_eq_ok_iff {t : Target} : ofChars cs = .ok t ↔
    ∃ service method, cut (stripLead cs) = .ok (service, method) ∧ service ≠ [] ∧ method ≠ [] ∧
      t = ⟨String.ofList service, String.ofList method⟩ := by
  have hempty : stripLead cs = [] → cut (stripLead cs) = .error .noSeparator := by
    intro h
    rw [h]
    rfl
  rw [ofChars]
  cases hcut : cut (stripLead cs) with
  | error fault => split <;> simp
  | ok parts =>
    obtain ⟨service, method⟩ := parts
    have hne : (stripLead cs).isEmpty = false := by
      rw [← Bool.not_eq_true, List.isEmpty_iff]
      intro h
      rw [hempty h] at hcut
      cases hcut
    rw [hne]
    cases service with
    | nil => simp
    | cons a service =>
      cases method with
      | nil => simp
      | cons b method => simp [eq_comm]

theorem parse_eq_ok_iff {s : String} {t : Target} : parse s = .ok t ↔ ofChars s.toList = .ok t := by
  rw [parse]
  cases ofChars s.toList <;> simp

theorem stripLead_eq_iff {rest : List Char} : stripLead cs = rest ↔
    cs = '.' :: rest ∨ cs = '/' :: rest ∨
      (cs = rest ∧ rest.head? ≠ some '.' ∧ rest.head? ≠ some '/') := by
  rw [stripLead.eq_def]
  split
  · simp +contextual [eq_comm]
  · simp +contextual [eq_comm]
  · rename_i hdot hslash
    constructor
    · rintro rfl
      refine .inr (.inr ⟨rfl, fun hhead ↦ ?_, fun hhead ↦ ?_⟩)
      · obtain ⟨tail, rfl⟩ := List.head?_eq_some_iff.1 hhead
        exact hdot tail rfl
      · obtain ⟨tail, rfl⟩ := List.head?_eq_some_iff.1 hhead
        exact hslash tail rfl
    · rintro (rfl | rfl | ⟨rfl, -⟩)
      · exact absurd rfl (hdot rest)
      · exact absurd rfl (hslash rest)
      · rfl

end Call.Target

namespace Schema

open Call (Target)
open Source (isWordStart isWordChar)

variable {files : List FileDecl} {p : Pool} {s : Service} {d : Method}

/-! ## Names -/

/-- Letters, digits and underscores, no digit first. -/
def IsIdentifier : List Char → Prop
  | [] => False
  | c :: cs => isWordStart c = true ∧ cs.all isWordChar = true

instance : DecidablePred IsIdentifier
  | [] => inferInstanceAs (Decidable False)
  | c :: cs => inferInstanceAs (Decidable (isWordStart c = true ∧ cs.all isWordChar = true))

/-- Identifiers with dots between them. -/
inductive IsDotted : List Char → Prop
  | single {cs : List Char} : IsIdentifier cs → IsDotted cs
  | cons {cs rest : List Char} : IsIdentifier cs → IsDotted rest → IsDotted (cs ++ '.' :: rest)

theorem isWordChar_of_isWordStart {c : Char} (h : isWordStart c = true) : isWordChar c = true := by
  simp only [isWordStart, isWordChar, Char.isAlphanum, Bool.or_eq_true] at h ⊢
  exact h.imp_left .inl

theorem ranges_of_isAlphanum {c : Char} (h : c.isAlphanum = true) :
    (65 ≤ c.toNat ∧ c.toNat ≤ 90) ∨ (97 ≤ c.toNat ∧ c.toNat ≤ 122) ∨
      (48 ≤ c.toNat ∧ c.toNat ≤ 57) := by
  have hkinds : ((c.isUpper || c.isLower) || c.isDigit) = true := h
  rw [Bool.or_eq_true, Bool.or_eq_true] at hkinds
  rcases hkinds with (hupper | hlower) | hdigit
  · exact .inl (of_decide_eq_true hupper)
  · exact .inr (.inl ((Bool.and_eq_true_iff.1 hlower).imp of_decide_eq_true of_decide_eq_true))
  · exact .inr (.inr ((Bool.and_eq_true_iff.1 hdigit).imp of_decide_eq_true of_decide_eq_true))

/-- The characters of identifiers may stand in a path, and they separate nothing. -/
theorem of_isWordChar {c : Char} (h : isWordChar c = true) :
    Call.isPathChar c = true ∧ c ≠ '#' ∧ c ≠ '?' ∧ c ≠ '.' ∧ c ≠ '/' := by
  have hne (c' : Char) (h' : isWordChar c' = false) : c ≠ c' := by
    rintro rfl
    rw [h] at h'
    cases h'
  refine ⟨?_, hne _ rfl, hne _ rfl, hne _ rfl, hne _ rfl⟩
  simp only [Call.isPathChar, Bool.or_eq_true, Bool.and_eq_true, decide_eq_true_eq, beq_iff_eq]
  rw [isWordChar, Bool.or_eq_true, beq_iff_eq] at h
  rcases h with h | rfl
  · have hranges := ranges_of_isAlphanum h
    omega
  · decide

namespace IsIdentifier

variable {cs : List Char}

theorem forall_isWordChar (h : IsIdentifier cs) : ∀ c ∈ cs, isWordChar c = true := by
  cases cs with
  | nil => exact List.forall_mem_nil _
  | cons c cs =>
    exact List.forall_mem_cons.2 ⟨isWordChar_of_isWordStart h.1, List.all_eq_true.1 h.2⟩

theorem ne_nil (h : IsIdentifier cs) : cs ≠ [] := by
  rintro rfl
  exact h

theorem not_mem_of_separator (h : IsIdentifier cs) {c : Char} (hc : isWordChar c = false) :
    c ∉ cs := by
  intro hmem
  rw [h.forall_isWordChar c hmem] at hc
  cases hc

end IsIdentifier

namespace IsDotted

variable {cs : List Char}

theorem forall_mem (h : IsDotted cs) : ∀ c ∈ cs, c = '.' ∨ isWordChar c = true := by
  induction h with
  | single h => exact fun c hc ↦ .inr (h.forall_isWordChar c hc)
  | cons h _ ih =>
    refine List.forall_mem_append.2 ⟨fun c hc ↦ .inr (h.forall_isWordChar c hc), ?_⟩
    exact List.forall_mem_cons.2 ⟨.inl rfl, ih⟩

theorem exists_cons (h : IsDotted cs) : ∃ c rest, cs = c :: rest ∧ isWordChar c = true := by
  have hfirst {cs : List Char} (h : IsIdentifier cs) :
      ∃ c rest, cs = c :: rest ∧ isWordChar c = true := by
    obtain ⟨c, rest, rfl⟩ := List.exists_cons_of_ne_nil h.ne_nil
    exact ⟨c, rest, rfl, h.forall_isWordChar c List.mem_cons_self⟩
  cases h with
  | single h => exact hfirst h
  | @cons name rest h _ =>
    obtain ⟨c, more, rfl, hc⟩ := hfirst h
    exact ⟨c, more ++ '.' :: rest, rfl, hc⟩

theorem slash_not_mem (h : IsDotted cs) : '/' ∉ cs := by
  intro hmem
  rcases h.forall_mem _ hmem with heq | hword
  · cases heq
  · cases hword

theorem head?_ne (h : IsDotted cs) {c : Char} (hc : isWordChar c = false) : cs.head? ≠ some c := by
  obtain ⟨a, rest, rfl, ha⟩ := h.exists_cons
  rintro ⟨rfl⟩
  rw [ha] at hc
  cases hc

end IsDotted

theorem absolute_eq_iff {name full : String} (hfull : IsDotted full.toList) :
    Pool.absolute name = full ↔ name.toList = full.toList ∨ name.toList = '.' :: full.toList := by
  rw [Pool.absolute]
  split
  · rename_i cs hname
    rw [hname]
    constructor
    · rintro rfl
      exact .inr (by rw [String.toList_ofList])
    · rintro (heq | heq)
      · exact absurd (congrArg List.head? heq).symm (hfull.head?_ne rfl)
      · rw [(List.cons.inj heq).2, String.ofList_toList]
  · rename_i hname
    constructor
    · rintro rfl
      exact .inl rfl
    · rintro (heq | heq)
      · exact String.toList_inj.1 heq
      · exact absurd heq (hname _)

/-! ## Methods of a linked pool -/

/-- The methods of all services. -/
def Pool.methods (p : Pool) : List Method := p.services.flatMap Service.methods

/-- The names of services are dotted identifiers, and those of methods are identifiers. -/
def Pool.IsNamed (p : Pool) : Prop :=
  ∀ s ∈ p.services, IsDotted s.symbol.full.toList ∧
    ∀ d ∈ s.methods, IsIdentifier d.name.toList

theorem methods_of_linkService {ds : List Definition} {package : String} {declared : ServiceDecl}
    (h : linkService ds package declared = .ok s) :
    (∀ d ∈ s.methods, d.service = s.symbol) ∧
      s.methods.map (·.name) = declared.methods.map (·.name) := by
  obtain ⟨methods, hmethods, h⟩ := bind_eq_ok_iff.1 h
  obtain rfl := Except.ok.inj h
  -- Both are read off the method that comes of a declaration.
  have hmethod (m : MethodDecl) (d : Method)
      (hd : (do
        let input ← Scope.resolve ⟨ds, (Symbol.of package declared.name).full⟩ [.message] m.input
        let output ← Scope.resolve ⟨ds, (Symbol.of package declared.name).full⟩ [.message] m.output
        return (⟨.of package declared.name, m.name, input.symbol, output.symbol,
          m.clientStreaming, m.serverStreaming⟩ : Method)) = .ok d) :
      d.service = .of package declared.name ∧ d.name = m.name := by
    obtain ⟨input, -, hd⟩ := bind_eq_ok_iff.1 hd
    obtain ⟨output, -, hd⟩ := bind_eq_ok_iff.1 hd
    obtain rfl := Except.ok.inj hd
    exact ⟨rfl, rfl⟩
  refine ⟨fun d hd ↦ ?_, map_eq_of_mapM hmethods fun m d hd ↦ (hmethod m d hd).2⟩
  obtain ⟨m, -, hm⟩ := exists_of_mem_mapM hmethods hd
  exact (hmethod m d hm).1

theorem FileDecl.nodup_methods {f : FileDecl} (h : NoClash f.definitions) {declared : ServiceDecl}
    (hdeclared : declared ∈ f.services) : (declared.methods.map (·.name)).Nodup := by
  obtain ⟨h, -, -⟩ := List.pairwise_append.1 h
  obtain ⟨-, hservices, -⟩ := List.pairwise_append.1 h
  have hservice := (List.pairwise_flatMap.1 hservices).1 declared hdeclared
  refine List.pairwise_map.2 ((List.pairwise_map.1 (List.pairwise_cons.1 hservice).2).imp ?_)
  intro m n hcompatible heq
  cases (compatible_iff.1 hcompatible (congrArg (qualify _) heq)).1

/-- What is known of a service of a linked pool: it is found by its name, its methods know it, and
no two of them share a name. -/
theorem of_mem_services (h : link files = .ok p) (hs : s ∈ p.services) :
    (∀ name, s.symbol.full = Pool.absolute name → p.service? name = some s) ∧
      (∀ d ∈ s.methods, d.service = s.symbol) ∧ (s.methods.map (·.name)).Nodup := by
  obtain ⟨hwell, ps, hps, rfl⟩ := link_eq_ok h
  rw [services_foldl_append, List.nil_append] at hs
  obtain ⟨q, hq, hs⟩ := List.mem_flatMap.1 hs
  obtain ⟨f, hf, hlink⟩ := exists_of_mem_mapM hps hq
  obtain ⟨declared, hdeclared, hservice⟩ := exists_of_mem_mapM (linkIn_eq_ok hlink).2 hs
  obtain ⟨hknow, hnames⟩ := methods_of_linkService hservice
  refine ⟨fun name hname ↦ ?_, hknow, hnames ▸ FileDecl.nodup_methods (hwell.noClash_file hf)
    hdeclared⟩
  exact service?_eq_some hwell (fun q hq ↦ exists_of_mem_mapM hps hq) hq hs hname

/-- A target comes to a method by the full name of its service, perhaps with a dot in front, and its
own name. -/
theorem lookup_eq_ok_iff (h : link files = .ok p) {t : Target} :
    p.lookup t = .ok d ↔
      d ∈ p.methods ∧ Pool.absolute t.service = d.service.full ∧ t.method = d.name := by
  rw [Pool.lookup, Pool.methods, List.mem_flatMap]
  constructor
  · intro hd
    cases hs : p.service? t.service with
    | none =>
      rw [hs] at hd
      dsimp only at hd
      split at hd <;> cases hd
    | some s =>
      have hmem : s ∈ p.services := List.mem_of_find?_eq_some hs
      have hfull : s.symbol.full = Pool.absolute t.service := by
        rw [Pool.service?] at hs
        simpa using List.find?_some hs
      cases hm : s.methods.find? fun m ↦ m.name == t.method with
      | none =>
        rw [hs] at hd
        dsimp only at hd
        rw [hm] at hd
        cases hd
      | some m =>
        rw [hs] at hd
        dsimp only at hd
        rw [hm] at hd
        obtain rfl := Except.ok.inj hd
        have hm' := List.mem_of_find?_eq_some hm
        have hname : m.name = t.method := by simpa using List.find?_some hm
        refine ⟨⟨s, hmem, hm'⟩, ?_, hname.symm⟩
        rw [(of_mem_services h hmem).2.1 m hm', hfull]
  · rintro ⟨⟨s, hs, hd⟩, hservice, hname⟩
    obtain ⟨hfind, hknow, hnodup⟩ := of_mem_services h hs
    have hmethod : (s.methods.find? fun m ↦ m.name == t.method) = some d := by
      refine find?_eq_some_of_unique hd (beq_iff_eq.2 hname.symm) fun m hm heq ↦ ?_
      exact List.inj_on_of_nodup_map hnodup hm hd ((beq_iff_eq.1 heq).trans hname)
    rw [hfind t.service (hknow d hd ▸ hservice.symm)]
    dsimp only
    rw [hmethod]

theorem requestPath?_eq_some {s : String}
    (h : ∀ c ∈ s.toList, Call.isPathChar c = true ∧ c ≠ '#' ∧ c ≠ '?') :
    Call.requestPath? s = some s := by
  have hfragment := List.takeWhile_eq_self_iff.2 fun c hc ↦ bne_iff_ne.2 (h c hc).2.1
  have hpath := List.takeWhile_eq_self_iff.2 fun c hc ↦ bne_iff_ne.2 (h c hc).2.2
  have hquery := List.dropWhile_eq_nil_iff.2 fun c hc ↦ bne_iff_ne.2 (h c hc).2.2
  have hall := List.all_eq_true.2 fun c hc ↦ (h c hc).1
  simp only [Call.requestPath?, hfragment, hpath, hquery, hall, List.drop_nil, List.all_nil,
    Bool.and_self, if_true, String.ofList_toList]

/-! ## Spellings -/

/-- The texts that come to a method: the name of its service, a dot or a slash, and its own name,
perhaps with a separator in front, and after that perhaps with a dot that is ignored as in every
full name. -/
def Method.spellings (d : Method) : List String :=
  ["", ".", "/", "..", "/."].flatMap fun lead ↦
    [lead ++ d.service.full ++ "." ++ d.name, lead ++ d.service.full ++ "/" ++ d.name]

theorem stripLead_eq_full_iff {full tail cs : List Char} (hfull : IsDotted full) :
    Target.stripLead cs = full ++ tail ↔
      cs = full ++ tail ∨ cs = '.' :: (full ++ tail) ∨ cs = '/' :: (full ++ tail) := by
  obtain ⟨c, rest, rfl, hc⟩ := hfull.exists_cons
  have hdot : c ≠ '.' := (of_isWordChar hc).2.2.2.1
  have hslash : c ≠ '/' := (of_isWordChar hc).2.2.2.2
  rw [Target.stripLead_eq_iff, List.cons_append, List.head?_cons]
  constructor
  · rintro (h | h | ⟨h, -⟩)
    · exact .inr (.inl h)
    · exact .inr (.inr h)
    · exact .inl h
  · rintro (h | h | h)
    · exact .inr (.inr ⟨h, mt Option.some.inj hdot, mt Option.some.inj hslash⟩)
    · exact .inl h
    · exact .inr (.inl h)

theorem stripLead_eq_dot_cons_iff {cs rest : List Char} :
    Target.stripLead cs = '.' :: rest ↔ cs = '.' :: '.' :: rest ∨ cs = '/' :: '.' :: rest := by
  rw [Target.stripLead_eq_iff]
  refine or_congr_right (or_iff_left ?_)
  rintro ⟨-, hne, -⟩
  exact hne rfl

/-- Taken apart, a spelling has in front of the separator the name of the service, perhaps with the
dot that is ignored. -/
theorem mem_spellings_iff (hservice : IsDotted d.service.full.toList) {text : String} :
    text ∈ d.spellings ↔
      ∃ service, (service = d.service.full.toList ∨ service = '.' :: d.service.full.toList) ∧
        (Target.stripLead text.toList = service ++ '.' :: d.name.toList ∨
          Target.stripLead text.toList = service ++ '/' :: d.name.toList) := by
  have hends (lead : String) :
      text ∈ [lead ++ d.service.full ++ "." ++ d.name, lead ++ d.service.full ++ "/" ++ d.name] ↔
        ∃ sep, (sep = '.' ∨ sep = '/') ∧
          text.toList = lead.toList ++ (d.service.full.toList ++ sep :: d.name.toList) := by
    simp [← String.toList_inj]
  rw [Method.spellings, List.mem_flatMap]
  constructor
  · rintro ⟨lead, hlead, hmem⟩
    obtain ⟨sep, hsep, htext⟩ := (hends lead).1 hmem
    have hstrip (service : List Char)
        (h : Target.stripLead text.toList = service ++ sep :: d.name.toList) :
        Target.stripLead text.toList = service ++ '.' :: d.name.toList ∨
          Target.stripLead text.toList = service ++ '/' :: d.name.toList := by
      rcases hsep with rfl | rfl
      · exact .inl h
      · exact .inr h
    -- The first three beginnings leave the name itself, and the other two leave the dot.
    simp only [List.mem_cons, List.not_mem_nil, or_false] at hlead
    rcases hlead with rfl | rfl | rfl | rfl | rfl
    · exact ⟨_, .inl rfl, hstrip _ ((stripLead_eq_full_iff hservice).2 (.inl htext))⟩
    · exact ⟨_, .inl rfl, hstrip _ ((stripLead_eq_full_iff hservice).2 (.inr (.inl htext)))⟩
    · exact ⟨_, .inl rfl, hstrip _ ((stripLead_eq_full_iff hservice).2 (.inr (.inr htext)))⟩
    · exact ⟨_, .inr rfl, hstrip _ (stripLead_eq_dot_cons_iff.2 (.inl htext))⟩
    · exact ⟨_, .inr rfl, hstrip _ (stripLead_eq_dot_cons_iff.2 (.inr htext))⟩
  · rintro ⟨service, hs, htext⟩
    obtain ⟨sep, hsep, hstrip⟩ : ∃ sep, (sep = '.' ∨ sep = '/') ∧
        Target.stripLead text.toList = service ++ sep :: d.name.toList := by
      rcases htext with h | h
      · exact ⟨_, .inl rfl, h⟩
      · exact ⟨_, .inr rfl, h⟩
    rcases hs with rfl | rfl
    · rcases (stripLead_eq_full_iff hservice).1 hstrip with h | h | h
      · exact ⟨"", by simp, (hends _).2 ⟨sep, hsep, h⟩⟩
      · exact ⟨".", by simp, (hends _).2 ⟨sep, hsep, h⟩⟩
      · exact ⟨"/", by simp, (hends _).2 ⟨sep, hsep, h⟩⟩
    · rcases stripLead_eq_dot_cons_iff.1 hstrip with h | h
      · exact ⟨"..", by simp, (hends _).2 ⟨sep, hsep, h⟩⟩
      · exact ⟨"/.", by simp, (hends _).2 ⟨sep, hsep, h⟩⟩

section Named

variable (hservice : IsDotted d.service.full.toList) (hname : IsIdentifier d.name.toList)

include hservice hname

/-- What is left without the separator in front is the name of the service, perhaps with a dot in
front, a separator and the name of the method. -/
theorem cut_eq_ok_iff_of_named {cs service : List Char} (hs : service = d.service.full.toList ∨
    service = '.' :: d.service.full.toList) :
    Target.cut cs = .ok (service, d.name.toList) ↔
      cs = service ++ '.' :: d.name.toList ∨ cs = service ++ '/' :: d.name.toList := by
  have hslash : '/' ∉ service := by
    rcases hs with rfl | rfl
    · exact hservice.slash_not_mem
    · exact List.not_mem_cons_of_ne_of_not_mem (by decide) hservice.slash_not_mem
  have hmethod : '/' ∉ d.name.toList := hname.not_mem_of_separator rfl
  rw [Target.cut_eq_ok_iff]
  constructor
  · rintro (⟨hcs, -⟩ | ⟨hcs, -⟩)
    · exact .inl hcs
    · exact .inr hcs
  · rintro (rfl | rfl)
    · refine .inl ⟨rfl, ?_, hname.not_mem_of_separator rfl⟩
      rw [List.mem_append, not_or]
      exact ⟨hslash, List.not_mem_cons_of_ne_of_not_mem (by decide) hmethod⟩
    · exact .inr ⟨rfl, hslash, hmethod⟩

theorem parse_eq_ok_iff_of_named {text : String} :
    (∃ t, Target.parse text = .ok t ∧ Pool.absolute t.service = d.service.full ∧
        t.method = d.name) ↔
      ∃ service, (service = d.service.full.toList ∨ service = '.' :: d.service.full.toList) ∧
        (Target.stripLead text.toList = service ++ '.' :: d.name.toList ∨
          Target.stripLead text.toList = service ++ '/' :: d.name.toList) := by
  constructor
  · rintro ⟨t, ht, habsolute, hmethod⟩
    obtain ⟨service, method, hcut, -, -, rfl⟩ :=
      Target.ofChars_eq_ok_iff.1 (Target.parse_eq_ok_iff.1 ht)
    rw [absolute_eq_iff hservice, String.toList_ofList] at habsolute
    obtain rfl : method = d.name.toList := by
      rw [← hmethod, String.toList_ofList]
    exact ⟨service, habsolute, (cut_eq_ok_iff_of_named hservice hname habsolute).1 hcut⟩
  · rintro ⟨service, hs, htext⟩
    have hcut := (cut_eq_ok_iff_of_named hservice hname hs).2 htext
    have hne : service ≠ [] := by
      obtain ⟨c, rest, hfull, -⟩ := hservice.exists_cons
      rcases hs with rfl | rfl
      · exact hfull ▸ List.cons_ne_nil c rest
      · exact List.cons_ne_nil _ _
    refine ⟨_, Target.parse_eq_ok_iff.2 (Target.ofChars_eq_ok_iff.2
      ⟨service, d.name.toList, hcut, hne, hname.ne_nil, rfl⟩), ?_, String.ofList_toList⟩
    rw [absolute_eq_iff hservice, String.toList_ofList]
    exact hs

theorem path_eq_ok : d.path = .ok ("/" ++ d.service.full ++ "/" ++ d.name) := by
  have hchar (c : Char) (hc : c ∈ ("/" ++ d.service.full ++ "/" ++ d.name).toList) :
      (c = '/' ∨ c = '.') ∨ isWordChar c = true := by
    simp only [String.toList_append, List.mem_append] at hc
    rcases hc with ((hc | hc) | hc) | hc
    · exact .inl (.inl (List.mem_singleton.1 hc))
    · exact (hservice.forall_mem c hc).imp_left .inr
    · exact .inl (.inl (List.mem_singleton.1 hc))
    · exact .inr (hname.forall_isWordChar c hc)
  have hpath := requestPath?_eq_some (s := "/" ++ d.service.full ++ "/" ++ d.name) fun c hc ↦ by
    rcases hchar c hc with (rfl | rfl) | hword
    · decide
    · decide
    · exact ⟨(of_isWordChar hword).1, (of_isWordChar hword).2.1, (of_isWordChar hword).2.2.1⟩
  have htext : s!"/{d.service.full}/{d.name}" = "/" ++ d.service.full ++ "/" ++ d.name := by
    simp [String.append_assoc, toString]
  rw [Method.path, htext, hpath]

end Named

theorem Pool.IsNamed.of_mem (hnamed : p.IsNamed) (h : link files = .ok p) (hd : d ∈ p.methods) :
    IsDotted d.service.full.toList ∧ IsIdentifier d.name.toList := by
  obtain ⟨s, hs, hmem⟩ := List.mem_flatMap.1 hd
  rw [(of_mem_services h hs).2.1 d hmem]
  exact (hnamed s hs).imp_right fun hmethods ↦ hmethods d hmem

/-- **The spellings of a method.** In a linked pool whose names are identifiers, exactly the texts
among a method's spellings come to it. Its full name and the path of its requests are among them,
and two methods share none. -/
theorem method_eq_ok_iff (h : link files = .ok p) (hnamed : p.IsNamed) (hd : d ∈ p.methods) :
    (∀ text, p.method text = .ok d ↔ text ∈ d.spellings) ∧
      p.method d.fullName = .ok d ∧
      (∃ path, d.path = .ok path ∧ p.method path = .ok d) ∧
      ∀ d' ∈ p.methods, d' ≠ d → d.spellings.Disjoint d'.spellings := by
  have hmethod {d : Method} (hd : d ∈ p.methods) (text : String) :
      p.method text = .ok d ↔ text ∈ d.spellings := by
    obtain ⟨hservice, hname⟩ := hnamed.of_mem h hd
    rw [mem_spellings_iff hservice, ← parse_eq_ok_iff_of_named hservice hname, Pool.method,
      bind_eq_ok_iff]
    simp only [lookup_eq_ok_iff h, hd, true_and]
  obtain ⟨hservice, hname⟩ := hnamed.of_mem h hd
  refine ⟨hmethod hd, (hmethod hd _).2 ?_,
    ⟨_, path_eq_ok hservice hname, (hmethod hd _).2 ?_⟩, fun d' hd' hne ↦ ?_⟩
  · have hfull : d.service.full.isEmpty = false := by
      obtain ⟨c, rest, hcs, -⟩ := hservice.exists_cons
      simp [String.isEmpty_eq_false_iff, ← String.toList_inj, hcs]
    simp [Method.fullName, qualify, hfull, Method.spellings]
  · simp [Method.spellings]
  · intro text htext htext'
    have hsame := ((hmethod hd text).2 htext).symm.trans ((hmethod hd' text).2 htext')
    exact hne (Except.ok.inj hsame).symm

/-! ## The Greeter -/

/-- A method of the Greeter in its pool. -/
def greeterMethod (name : String) (clientStreaming serverStreaming : Bool) : Method where
  service := .of "helloworld" "Greeter"
  name
  input := .of "helloworld" "HelloRequest"
  output := .of "helloworld" "HelloReply"
  clientStreaming
  serverStreaming

/-- The service of the Greeter in its pool. -/
def greeterService : Service where
  symbol := .of "helloworld" "Greeter"
  methods := [greeterMethod "SayHello" false false, greeterMethod "SayHellos" false true,
    greeterMethod "SayHelloCS" true false, greeterMethod "SayHelloBidi" true true]

theorem isNamed_greeter {p : Pool} (h : p.services = [greeterService]) : p.IsNamed := by
  rw [Pool.IsNamed, h, List.forall_mem_singleton]
  have hpackage : IsIdentifier "helloworld".toList := by decide +kernel
  have hservice : IsIdentifier "Greeter".toList := by decide +kernel
  exact ⟨IsDotted.cons hpackage (.single hservice), by decide +kernel⟩

/-- The pool has two methods whose names start alike, and each keeps its own spellings. -/
theorem method_eq_ok_iff_greeter : ∃ p, link [Greeter.file] = .ok p ∧ p.IsNamed ∧
    greeterMethod "SayHello" false false ∈ p.methods ∧
      p.method "/.helloworld.Greeter.SayHello" = .ok (greeterMethod "SayHello" false false) ∧
      p.method "/.helloworld.Greeter.SayHellos" ≠ .ok (greeterMethod "SayHello" false false) := by
  have hlink : (link [Greeter.file]).toOption.map (·.services) = some [greeterService] := by
    decide +kernel
  obtain ⟨p, hp, hservices⟩ := Option.map_eq_some_iff.1 hlink
  have hp := toOption_eq_some_iff.1 hp
  have hnamed := isNamed_greeter hservices
  have hmem : greeterMethod "SayHello" false false ∈ p.methods := by
    rw [Pool.methods, hservices]
    decide
  obtain ⟨hmethod, -⟩ := method_eq_ok_iff hp hnamed hmem
  refine ⟨p, hp, hnamed, hmem, (hmethod _).2 (by decide), mt (hmethod _).1 (by decide)⟩

/-- A text that comes to a method though it has two dots in front, one more than reading a target
ignores. -/
theorem method_of_two_dots : ∃ p d, link [Greeter.file] = .ok p ∧ p.IsNamed ∧ d ∈ p.methods ∧
    p.method "..helloworld.Greeter/SayHello" = .ok d ∧
      ∀ lead ∈ ["", ".", "/"], ∀ separator ∈ [".", "/"],
        "..helloworld.Greeter/SayHello" ≠ lead ++ d.service.full ++ separator ++ d.name := by
  have hlink : (link [Greeter.file]).toOption.map (fun p ↦
      (p.services, (p.method "..helloworld.Greeter/SayHello").toOption)) =
        some ([greeterService], some (greeterMethod "SayHello" false false)) := by
    decide +kernel
  obtain ⟨p, hp, heq⟩ := Option.map_eq_some_iff.1 hlink
  obtain ⟨hservices, hmethod⟩ := Prod.mk.inj heq
  refine ⟨p, greeterMethod "SayHello" false false, toOption_eq_some_iff.1 hp,
    isNamed_greeter hservices, ?_, toOption_eq_some_iff.1 hmethod, by decide⟩
  rw [Pool.methods, hservices]
  decide

end Schema

end CallCheck

import SourceCheck.Proofs.Ty.Formed
import SourceCheck.Ty.Layout

/-!
# Types within modules

A type is within modules if each struct and enum in it is declared by one of them. Layouts and containment are the
same for tables that agree on these.
-/

namespace SourceCheck

open List NominalTable

namespace Ty

/-- Every struct and enum in a type is declared by a module of `M`. -/
abbrev Within (M : String → Prop) (t : Ty) : Prop :=
  t.Formed (fun _ => True) fun n _ => M n.module

/-- Every struct and enum in the types is declared by a module of `M`. -/
abbrev WithinAll (M : String → Prop) (ts : List Ty) : Prop :=
  AllFormed (fun _ => True) (fun n _ => M n.module) ts

end Ty

/-! ### Tables of structs and enums -/

namespace NominalTable

variable {M : String → Prop} {table other : NominalTable}

/-- The same about the structs and enums of modules, whose members are within the modules. -/
structure Agree (M : String → Prop) (table other : NominalTable) : Prop where
  same : ∀ n : Nominal, M n.module → other.lookup n = table.lookup n
  members : ∀ (n : Nominal) (ts : List Ty), M n.module → table.lookup n = some ts → Ty.WithinAll M ts

lemma lookup_erase (table n m) : (erase table n).lookup m = if m = n then none else table.lookup m := by
  induction table with
  | nil => simp [erase]
  | cons entry rest ih =>
    obtain ⟨k, ts⟩ := entry
    unfold erase at ih ⊢
    by_cases hk : k = n
    · rw [filter_cons_of_neg (by simpa using hk), ih]
      by_cases hm : m = n
      · simp [hm]
      · have hkey : (m == k) = false := beq_false_of_ne (hk ▸ hm)
        rw [if_neg hm, if_neg hm, lookup_cons, hkey]
    · rw [filter_cons_of_pos (by simpa using hk), lookup_cons, lookup_cons, ih]
      by_cases hm : m = n
      · have hkey : (m == k) = false := beq_false_of_ne (hm ▸ Ne.symm hk)
        rw [hkey, if_pos hm]
      · rw [if_neg hm, if_neg hm]

lemma Agree.erase (h : Agree M table other) (n) :
    Agree M (erase table n) (erase other n) where
  same m hm := by rw [lookup_erase, lookup_erase, h.same m hm]
  members m ts hm hts := by
    rw [lookup_erase] at hts
    split at hts
    · cases hts
    · exact h.members m ts hm hts

end NominalTable

namespace Ty

variable {M : String → Prop}

mutual

lemma layoutWith_congr {members others} (h : ∀ n : Nominal, M n.module → others n = members n) {t : Ty}
    (ht : t.Within M) : t.layoutWith others = t.layoutWith members := by
  match t with
  | .primitive _ | .pointer .. | .taskHandle _ | .slice _ | .param _ | .infinite | .unknown =>
    simp [layoutWith]
  | .array elem _ | .option elem => simp only [layoutWith, layoutWith_congr h (t := elem) ht]
  | .tuple _ => simp only [layoutWith, layoutsWith_congr h ht]
  | .result .. => simp only [layoutWith, layoutWith_congr h ht.1, layoutWith_congr h ht.2]
  | .struct .. | .enum .. => simp only [layoutWith, h _ ht.1]

lemma layoutsWith_congr {members others} (h : ∀ n : Nominal, M n.module → others n = members n) {ts}
    (hts : WithinAll M ts) : layoutsWith others ts = layoutsWith members ts := by
  match ts with
  | [] => rfl
  | _ :: _ => simp only [layoutsWith, layoutWith_congr h hts.1, layoutsWith_congr h hts.2]

end

end Ty

lemma NominalTable.Agree.memberLayouts {M : String → Prop} {table other} (h : Agree M table other) {n : Nominal}
    (hn : M n.module) : NominalTable.memberLayouts other n = NominalTable.memberLayouts table n := by
  rw [NominalTable.memberLayouts, NominalTable.memberLayouts]
  have hsame := h.same n hn
  split
  · rename_i hother
    split
    · rfl
    · rename_i htable
      rw [hother, htable] at hsame
      cases hsame
  · rename_i members hother
    split
    · rename_i htable
      rw [hother, htable] at hsame
      cases hsame
    · rename_i members' htable
      rw [hother, htable] at hsame
      cases hsame
      exact Ty.layoutsWith_congr (fun m hm => (h.erase n).memberLayouts hm) (h.members n _ hn htable)
termination_by table.length
decreasing_by exact NominalTable.length_erase_lt ‹_›

lemma Ty.layout_congr {M : String → Prop} {table other : NominalTable} (h : table.Agree M other) {t : Ty}
    (ht : t.Within M) : t.layout other = t.layout table :=
  layoutWith_congr (fun _ hn => Agree.memberLayouts h hn) ht

mutual

lemma Ty.Within.inlineNominals {M : String → Prop} {t : Ty} (ht : t.Within M) :
    ∀ n ∈ t.inlineNominals, M n.module := by
  match t with
  | .struct .. | .enum .. => simpa [Ty.inlineNominals] using ht.1
  | .tuple _ => exact Ty.WithinAll.inlineNominalsAll ht
  | .array elem _ | .option elem => exact Ty.Within.inlineNominals (t := elem) ht
  | .result .. =>
    intro n hn
    obtain hn | hn := mem_append.1 hn
    · exact Ty.Within.inlineNominals ht.1 n hn
    · exact Ty.Within.inlineNominals ht.2 n hn
  | .primitive _ | .slice _ | .pointer .. | .taskHandle _ | .param _ | .infinite | .unknown =>
    simp [Ty.inlineNominals]

lemma Ty.WithinAll.inlineNominalsAll {M : String → Prop} {ts} (hts : Ty.WithinAll M ts) :
    ∀ n ∈ Ty.inlineNominalsAll ts, M n.module := by
  match ts with
  | [] => simp [Ty.inlineNominalsAll]
  | _ :: _ =>
    intro n hn
    obtain hn | hn := mem_append.1 hn
    · exact Ty.Within.inlineNominals hts.1 n hn
    · exact Ty.WithinAll.inlineNominalsAll hts.2 n hn

end

namespace NominalTable

variable {M : String → Prop} {table other : NominalTable}

lemma Agree.reaches (h : Agree M table other) (root) {pending} (hpending : ∀ n ∈ pending, M n.module) :
    reaches other root pending = reaches table root pending := by
  fun_induction NominalTable.reaches table root pending generalizing other with
  | case1 => rw [NominalTable.reaches]
  | case2 table rest => rw [NominalTable.reaches, if_pos rfl]
  | case3 table n rest hroot hnone ih =>
    have hother := (h.same n (hpending n (by simp))).trans hnone
    rw [reaches, if_neg hroot]
    split
    · exact ih h fun m hm => hpending m (by simp [hm])
    · rename_i hsome
      rw [hother] at hsome
      cases hsome
  | case4 table n rest hroot members hsome ih =>
    have hn := hpending n (by simp)
    have hother := (h.same n hn).trans hsome
    rw [reaches, if_neg hroot]
    split
    · rename_i hnone
      rw [hother] at hnone
      cases hnone
    · rename_i members' hmembers
      rw [hother] at hmembers
      cases hmembers
      refine ih (h.erase n) fun m hm => ?_
      obtain hm | hm := mem_append.1 hm
      · exact (h.members n members hn hsome).inlineNominalsAll m hm
      · exact hpending m (by simp [hm])

lemma isInfinite_congr (h : Agree M table other) {n : Nominal} (hn : M n.module) :
    isInfinite other n = isInfinite table n := by
  rw [isInfinite, isInfinite, h.same n hn]
  refine h.reaches n fun m hm => ?_
  cases hmembers : table.lookup n with
  | none => simp [hmembers, Ty.inlineNominalsAll] at hm
  | some ts =>
    rw [hmembers] at hm
    exact (h.members n ts hn hmembers).inlineNominalsAll m hm

end NominalTable

end SourceCheck

/- module: DesecStack/Names/Qnames
   source: api/desecapi/models/domains.py
   digest: The domains that a name may belong to, by suffix, and the parent of a domain. -/

import DesecStack.Changes.Models
import Mathlib.Data.List.TakeWhile

set_option autoImplicit false
set_option relaxedAutoImplicit false

namespace DesecStack.Names.Qnames

open Library.PyText
open Validators (validateDomainName)
open Changes.Models (nameMaxLength)

/-- The validators of `Domain.name`, which are not run on an empty text. -/
def runNameValidators (unicode : Unicode) (value : Text) : Bool :=
  value = [] || (validateDomainName unicode value && value.length ≤ nameMaxLength)

/-- `filter_qname`, on the name of one domain. -/
def filterQname (unicode : Unicode) (qname name : Text) : Bool :=
  runNameValidators unicode (unicode.lower (removePrefix qname "*.".toList)) &&
    endsWith ('.' :: qname) ('.' :: name)

/-- `_partitioned_name` -/
def partitionedName (name : Text) : Text × Option Text :=
  let (subname, parentName) := partition '.' name
  (subname, parentName.filter (· ≠ []))

/-- `parent_domain_name` -/
def parentDomainName (name : Text) : Option Text := (partitionedName name).2

/-- `is_locally_registrable` -/
def isLocallyRegistrable (localPublicSuffixes : Finset Text) (name : Text) : Bool :=
  (parentDomainName name).any fun parent => parent ∈ localPublicSuffixes

theorem name_eq {name parent : Text} (under : parentDomainName name = some parent) :
    name = (partitionedName name).1 ++ '.' :: parent := by
  simp only [parentDomainName, partitionedName, partition, Option.filter_eq_some_iff] at under ⊢
  obtain ⟨inside, _⟩ := under
  split at inside
  · next dotted =>
    rw [← Option.some.inj inside]
    cases rest : name.dropWhile (· != '.') with
    | nil =>
      have other := List.dropWhile_eq_nil_iff.mp rest '.' dotted
      simp at other
    | cons c back =>
      have stop := List.head?_dropWhile_not (· != '.') name
      rw [rest] at stop
      have dot : c = '.' := by simpa using stop
      subst dot
      rw [List.drop_succ_cons, List.drop_zero, ← rest, List.takeWhile_append_dropWhile]
  · cases inside

theorem length_parent_lt {name parent : Text} (under : parentDomainName name = some parent) :
    parent.length < name.length := by
  have whole := congrArg List.length (name_eq under)
  rw [List.length_append, List.length_cons] at whole
  omega

end DesecStack.Names.Qnames

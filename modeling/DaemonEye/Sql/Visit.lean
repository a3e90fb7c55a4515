import DaemonEye.Sql.Ast

/-!
# The derived traversal

The events a visitor of the tree is told of, in order: a node before its
fields, the fields in the order they are declared. A visitor that may
break off is a fold of these events that may fail.
-/

namespace DaemonEye.Sql

inductive Event
  | preVisitQuery (query : Query)
  | postVisitQuery (query : Query)
  | preVisitRelation (name : ObjectName)
  | preVisitTableFactor (factor : TableFactor)
  | preVisitExpr (expr : Expr)

mutual

def Expr.events : Expr → List Event
  | .identifier i => [.preVisitExpr (.identifier i)]
  | .compoundIdentifier parts => [.preVisitExpr (.compoundIdentifier parts)]
  | .isTest t e => .preVisitExpr (.isTest t e) :: e.events
  | .isDistinctFrom l r => .preVisitExpr (.isDistinctFrom l r) :: (l.events ++ r.events)
  | .isNotDistinctFrom l r => .preVisitExpr (.isNotDistinctFrom l r) :: (l.events ++ r.events)
  | .inList e list n => .preVisitExpr (.inList e list n) :: (e.events ++ exprsEvents list)
  | .inSubquery e q n => .preVisitExpr (.inSubquery e q n) :: (e.events ++ q.events)
  | .between e n lo hi => .preVisitExpr (.between e n lo hi) :: (e.events ++ lo.events ++ hi.events)
  | .binaryOp l op r => .preVisitExpr (.binaryOp l op r) :: (l.events ++ r.events)
  | .like n a e p c => .preVisitExpr (.like n a e p c) :: (e.events ++ p.events)
  | .iLike n a e p c => .preVisitExpr (.iLike n a e p c) :: (e.events ++ p.events)
  | .similarTo n e p c => .preVisitExpr (.similarTo n e p c) :: (e.events ++ p.events)
  | .rLike n e p r => .preVisitExpr (.rLike n e p r) :: (e.events ++ p.events)
  | .unaryOp op e => .preVisitExpr (.unaryOp op e) :: e.events
  | .cast k e => .preVisitExpr (.cast k e) :: e.events
  | .nested e => .preVisitExpr (.nested e) :: e.events
  | .value v => [.preVisitExpr (.value v)]
  | .function f => .preVisitExpr (.function f) :: f.events
  | .exists q n => .preVisitExpr (.exists q n) :: q.events
  | .subquery q => .preVisitExpr (.subquery q) :: q.events
  | .other k nodes => .preVisitExpr (.other k nodes) :: nodesEvents nodes

def exprsEvents : List Expr → List Event
  | [] => []
  | e :: es => e.events ++ exprsEvents es

def FunctionArgExpr.events : FunctionArgExpr → List Event
  | .expr e => e.events
  | .qualifiedWildcard _ => []
  | .wildcard => []

def FunctionArg.events : FunctionArg → List Event
  | .named nodes => nodesEvents nodes
  | .unnamed arg => arg.events

def functionArgsEvents : List FunctionArg → List Event
  | [] => []
  | a :: as => a.events ++ functionArgsEvents as

def FunctionArguments.events : FunctionArguments → List Event
  | .none => []
  | .subquery q => q.events
  | .list args clauses => functionArgsEvents args ++ nodesEvents clauses

def Function.events : Function → List Event
  | ⟨_, parameters, args, suffix⟩ => parameters.events ++ args.events ++ nodesEvents suffix

def Node.events : Node → List Event
  | .expr e => e.events
  | .query q => q.events
  | .relation name => [.preVisitRelation name]
  | .tableFactor f => f.events

def nodesEvents : List Node → List Event
  | [] => []
  | n :: ns => n.events ++ nodesEvents ns

def Clause.events : Clause → List Event
  | .absent => []
  | .present nodes => nodesEvents nodes

def aliasColumnsEvents : List TableAliasColumnDef → List Event
  | [] => []
  | ⟨_, dataType⟩ :: columns => nodesEvents dataType ++ aliasColumnsEvents columns

def aliasEvents : Option TableAlias → List Event
  | none => []
  | some ⟨_, _, columns⟩ => aliasColumnsEvents columns

def TableFactor.events : TableFactor → List Event
  | .table name al args hints version ord parts json sample index =>
    .preVisitTableFactor (.table name al args hints version ord parts json sample index) ::
      .preVisitRelation name :: (aliasEvents al ++ args.events ++ hints.events ++ version.events ++ json.events
        ++ sample.events ++ index.events)
  | .derived l q al sample =>
    .preVisitTableFactor (.derived l q al sample) :: (q.events ++ aliasEvents al ++ sample.events)
  | .function l name args al =>
    .preVisitTableFactor (.function l name args al) :: (functionArgsEvents args ++ aliasEvents al)
  | .nestedJoin t al => .preVisitTableFactor (.nestedJoin t al) :: (t.events ++ aliasEvents al)
  | .other k nodes => .preVisitTableFactor (.other k nodes) :: nodesEvents nodes

def Join.events : Join → List Event
  | ⟨relation, joinConstraint⟩ => relation.events ++ nodesEvents joinConstraint

def joinsEvents : List Join → List Event
  | [] => []
  | j :: js => j.events ++ joinsEvents js

def TableWithJoins.events : TableWithJoins → List Event
  | ⟨relation, joins⟩ => relation.events ++ joinsEvents joins

def fromEvents : List TableWithJoins → List Event
  | [] => []
  | t :: ts => t.events ++ fromEvents ts

def SelectItem.events : SelectItem → List Event
  | .unnamedExpr e => e.events
  | .exprWithAlias e _ => e.events
  | .qualifiedWildcard nodes => nodesEvents nodes
  | .wildcard nodes => nodesEvents nodes

def selectItemsEvents : List SelectItem → List Event
  | [] => []
  | i :: is => i.events ++ selectItemsEvents is

def GroupByExpr.events : GroupByExpr → List Event
  | .all modifiers => nodesEvents modifiers
  | .expressions es modifiers => exprsEvents es ++ nodesEvents modifiers

def optionEvents : Option Expr → List Event
  | none => []
  | some e => e.events

def Select.events : Select → List Event
  | ⟨hints, distinct, modifiers, top, projection, exclude, into, from_, views, prewhere, selection, connectBy,
      groupBy, clusterBy, distributeBy, sortBy, having, window, qualify, mode⟩ =>
    (hints.events ++ distinct.events ++ modifiers.events ++ top.events ++ selectItemsEvents projection ++
      exclude.events ++ into.events) ++ (fromEvents from_ ++ (views.events ++ prewhere.events ++
      optionEvents selection ++ connectBy.events ++ groupBy.events ++ clusterBy.events ++ distributeBy.events ++
      sortBy.events ++ having.events ++ window.events ++ qualify.events ++ mode.events))

def SetExpr.events : SetExpr → List Event
  | .select s => s.events
  | .query q => q.events
  | .setOperation l r => l.events ++ r.events
  | .other _ nodes => nodesEvents nodes

def Query.events : Query → List Event
  | ⟨with_, body, orderBy, limit, fetch, locks, forClause, settings, format, pipes⟩ =>
    .preVisitQuery ⟨with_, body, orderBy, limit, fetch, locks, forClause, settings, format, pipes⟩ ::
      (with_.events ++ (body.events ++ (orderBy.events ++ limit.events ++ fetch.events ++ locks.events ++
        forClause.events ++ settings.events ++ format.events ++ pipes.events ++
        [.postVisitQuery ⟨with_, body, orderBy, limit, fetch, locks, forClause, settings, format, pipes⟩])))

end

def Statement.events : Statement → List Event
  | .query q => q.events
  | .other nodes => nodesEvents nodes

end DaemonEye.Sql

import ScriptLens.Options
import ScriptLens.Source.Version

namespace ScriptLens

inductive Builtin where
  | es5
  | es6
deriving DecidableEq

namespace Builtin

def all : List Builtin :=
  [es5, es6]

def name : Builtin → String
  | es5 => "defaultLib:lib.d.ts"
  | es6 => "defaultLib:lib.es6.d.ts"

def ofTarget : Target → Builtin
  | .es3 | .es5 => es5
  | .es2015 | .es2016 | .es2017 | .esNext => es6

def ofName? (file : String) : Option Builtin :=
  all.find? (·.name = file)

def version : Version := .initial

def es5Lines : List String :=
  ["/// <reference no-default-lib=\"true\"/>",
   "",
   "declare var NaN: number;",
   "declare var Infinity: number;",
   "",
   "declare function parseInt(string: string, radix?: number): number;",
   "declare function parseFloat(string: string): number;",
   "declare function isNaN(number: number): boolean;",
   "declare function isFinite(number: number): boolean;",
   "",
   "interface Object \x7b",
   "    constructor: Function;",
   "    toString(): string;",
   "    valueOf(): Object;",
   "    hasOwnProperty(v: string): boolean;",
   "\x7d",
   "",
   "interface Function \x7b",
   "    apply(this: Function, thisArg: any, argArray?: any): any;",
   "    call(this: Function, thisArg: any, ...argArray: any[]): any;",
   "    bind(this: Function, thisArg: any, ...argArray: any[]): any;",
   "    readonly length: number;",
   "\x7d",
   "",
   "interface String \x7b",
   "    readonly length: number;",
   "    charAt(pos: number): string;",
   "    indexOf(searchString: string, position?: number): number;",
   "    slice(start?: number, end?: number): string;",
   "    split(separator: string, limit?: number): string[];",
   "    toLowerCase(): string;",
   "    toUpperCase(): string;",
   "    trim(): string;",
   "\x7d",
   "",
   "interface Number \x7b",
   "    toFixed(fractionDigits?: number): string;",
   "    toString(radix?: number): string;",
   "\x7d",
   "",
   "interface Boolean \x7b",
   "    valueOf(): boolean;",
   "\x7d",
   "",
   "interface Array<T> \x7b",
   "    length: number;",
   "    push(...items: T[]): number;",
   "    pop(): T | undefined;",
   "    concat(...items: T[][]): T[];",
   "    join(separator?: string): string;",
   "    slice(start?: number, end?: number): T[];",
   "    indexOf(searchElement: T, fromIndex?: number): number;",
   "    forEach(callbackfn: (value: T, index: number, array: T[]) => void): void;",
   "    map<U>(callbackfn: (value: T, index: number, array: T[]) => U): U[];",
   "    filter(predicate: (value: T, index: number, array: T[]) => unknown): T[];",
   "    [n: number]: T;",
   "\x7d",
   "",
   "interface RegExp \x7b",
   "    exec(string: string): RegExpExecArray | null;",
   "    test(string: string): boolean;",
   "\x7d",
   "",
   "interface RegExpExecArray extends Array<string> \x7b",
   "    index: number;",
   "    input: string;",
   "\x7d",
   "",
   "interface Date \x7b",
   "    getTime(): number;",
   "    toISOString(): string;",
   "\x7d",
   "",
   "interface Error \x7b",
   "    name: string;",
   "    message: string;",
   "\x7d",
   "",
   "interface JSON \x7b",
   "    parse(text: string): any;",
   "    stringify(value: any): string;",
   "\x7d",
   "",
   "declare var JSON: JSON;",
   "",
   "interface Math \x7b",
   "    readonly PI: number;",
   "    abs(x: number): number;",
   "    floor(x: number): number;",
   "    max(...values: number[]): number;",
   "    min(...values: number[]): number;",
   "    random(): number;",
   "\x7d",
   "",
   "declare var Math: Math;"]

def es6Lines : List String :=
  ["/// <reference no-default-lib=\"true\"/>",
   "/// <reference lib=\"es5\" />",
   "",
   "interface SymbolConstructor \x7b",
   "    readonly iterator: symbol;",
   "    (description?: string | number): symbol;",
   "\x7d",
   "",
   "declare var Symbol: SymbolConstructor;",
   "",
   "interface IteratorResult<T> \x7b",
   "    done: boolean;",
   "    value: T;",
   "\x7d",
   "",
   "interface Iterator<T> \x7b",
   "    next(value?: any): IteratorResult<T>;",
   "\x7d",
   "",
   "interface Iterable<T> \x7b",
   "    [Symbol.iterator](): Iterator<T>;",
   "\x7d",
   "",
   "interface PromiseLike<T> \x7b",
   "    then<R>(onfulfilled?: (value: T) => R | PromiseLike<R>): PromiseLike<R>;",
   "\x7d",
   "",
   "interface Promise<T> \x7b",
   "    then<R>(onfulfilled?: (value: T) => R | PromiseLike<R>): Promise<R>;",
   "    catch<R>(onrejected?: (reason: any) => R | PromiseLike<R>): Promise<T | R>;",
   "\x7d",
   "",
   "interface PromiseConstructor \x7b",
   "    new <T>(executor: (resolve: (value: T) => void, reject: (reason?: any) => void) => void): Promise<T>;",
   "    resolve<T>(value: T): Promise<T>;",
   "    reject<T = never>(reason?: any): Promise<T>;",
   "    all<T>(values: Iterable<T | PromiseLike<T>>): Promise<T[]>;",
   "\x7d",
   "",
   "declare var Promise: PromiseConstructor;",
   "",
   "interface Map<K, V> \x7b",
   "    readonly size: number;",
   "    get(key: K): V | undefined;",
   "    set(key: K, value: V): this;",
   "    has(key: K): boolean;",
   "    delete(key: K): boolean;",
   "    clear(): void;",
   "\x7d",
   "",
   "interface MapConstructor \x7b",
   "    new <K, V>(entries?: readonly (readonly [K, V])[] | null): Map<K, V>;",
   "\x7d",
   "",
   "declare var Map: MapConstructor;",
   "",
   "interface Set<T> \x7b",
   "    readonly size: number;",
   "    add(value: T): this;",
   "    has(value: T): boolean;",
   "    delete(value: T): boolean;",
   "    clear(): void;",
   "\x7d",
   "",
   "interface SetConstructor \x7b",
   "    new <T>(values?: readonly T[] | null): Set<T>;",
   "\x7d",
   "",
   "declare var Set: SetConstructor;",
   "",
   "interface ObjectConstructor \x7b",
   "    assign<T, U>(target: T, source: U): T & U;",
   "    keys(o: object): string[];",
   "    entries<T>(o: \x7b [s: string]: T \x7d): [string, T][];",
   "    freeze<T>(o: T): Readonly<T>;",
   "\x7d",
   "",
   "interface Array<T> \x7b",
   "    find(predicate: (value: T, index: number, obj: T[]) => unknown): T | undefined;",
   "    findIndex(predicate: (value: T, index: number, obj: T[]) => unknown): number;",
   "    includes(searchElement: T, fromIndex?: number): boolean;",
   "\x7d",
   "",
   "interface String \x7b",
   "    startsWith(searchString: string, position?: number): boolean;",
   "    endsWith(searchString: string, endPosition?: number): boolean;",
   "    includes(searchString: string, position?: number): boolean;",
   "    repeat(count: number): string;",
   "\x7d"]

def lines : Builtin → List String
  | es5 => es5Lines
  | es6 => es6Lines

def text (b : Builtin) : String :=
  "\n".intercalate b.lines ++ "\n"

end Builtin

end ScriptLens

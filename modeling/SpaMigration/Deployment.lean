import SpaMigration.GeneratedFile
import SpaMigration.Json.Printer
import SpaMigration.Options

/-!
# Files for deployment

Configuration of the places where the migrated project may be built and served. Each of them answers every
path with the one page of the project.
-/
namespace SpaMigration

/-- A place to build or serve a project. -/
inductive Platform where
  | vercel
  | netlify
  | github
  | docker
  deriving DecidableEq, Repr

namespace Platform

/-- The name of a platform. -/
def name : Platform → String
  | .vercel => "vercel"
  | .netlify => "netlify"
  | .github => "github"
  | .docker => "docker"

end Platform

namespace Deployment

/-- Lines of text, each with its line end. -/
def ofLines (lines : List String) : String := String.join (lines.map (· ++ "\n"))

/-- What the first platform calls the target. -/
def frameworkName : TargetStack → String
  | .vite => "vite"
  | .createReactApp => "create-react-app"

/-- The configuration of Vercel. -/
def vercel (target : TargetStack) : GeneratedFile where
  path := "vercel.json"
  content :=
    (Json.object
      [("buildCommand", .string target.buildCommand),
       ("devCommand", .string target.devCommand),
       ("framework", .string (frameworkName target)),
       ("outputDirectory", .string target.outputDirectory),
       ("rewrites", .array
         [.object [("destination", .string "/index.html"), ("source", .string "/(.*)")]])]).pretty ++ "\n"
  purpose := "Vercel deployment configuration"

/-- The configuration of Netlify. -/
def netlify (target : TargetStack) : GeneratedFile where
  path := "netlify.toml"
  content := ofLines
    ["[build]",
     "  command = \"" ++ target.buildCommand ++ "\"",
     "  publish = \"" ++ target.outputDirectory ++ "\"",
     "",
     "[dev]",
     "  command = \"" ++ target.devCommand ++ "\"",
     "",
     "[[redirects]]",
     "  from = \"/*\"",
     "  to = \"/index.html\"",
     "  status = 200"]
  purpose := "Netlify deployment configuration"

/-- The workflow for GitHub. -/
def github : GeneratedFile where
  path := ".github/workflows/main.yml"
  content := ofLines
    ["name: Build and Deploy",
     "",
     "on:",
     "  push:",
     "    branches: [ main ]",
     "  pull_request:",
     "    branches: [ main ]",
     "",
     "jobs:",
     "  build:",
     "    runs-on: ubuntu-latest",
     "",
     "    steps:",
     "    - uses: actions/checkout@v4",
     "",
     "    - name: Setup Node.js",
     "      uses: actions/setup-node@v4",
     "      with:",
     "        node-version: '18'",
     "        cache: 'npm'",
     "",
     "    - name: Install dependencies",
     "      run: npm ci",
     "",
     "    - name: Build",
     "      run: npm run build",
     "",
     "    - name: Run tests",
     "      run: npm test"]
  purpose := "GitHub Actions workflow"

/-- The image that builds and serves the project. -/
def docker (target : TargetStack) : GeneratedFile where
  path := "Dockerfile"
  content := ofLines
    ["FROM node:18-alpine AS build",
     "",
     "WORKDIR /app",
     "",
     "COPY package*.json ./",
     "RUN npm ci",
     "",
     "COPY . .",
     "RUN npm run build",
     "",
     "FROM nginx:stable-alpine",
     "",
     "COPY --from=build /app/" ++ target.outputDirectory ++ " /usr/share/nginx/html",
     "COPY nginx.conf /etc/nginx/conf.d/default.conf",
     "",
     "EXPOSE 80",
     "",
     "CMD [\"nginx\", \"-g\", \"daemon off;\"]"]
  purpose := "Docker configuration for containerized deployment"

/-- The configuration of the server in the image. -/
def nginx : GeneratedFile where
  path := "nginx.conf"
  content := ofLines
    ["server \x7b",
     "    listen 80;",
     "    root /usr/share/nginx/html;",
     "    index index.html;",
     "",
     "    location / \x7b",
     "        try_files $uri $uri/ /index.html;",
     "    \x7d",
     "\x7d"]
  purpose := "nginx SPA fallback used by the Dockerfile"

/-- Every file for deployment with its platform. -/
def files (target : TargetStack) : List (Platform × GeneratedFile) :=
  [(.vercel, vercel target), (.netlify, netlify target), (.github, github), (.docker, docker target),
   (.docker, nginx)]

end Deployment

end SpaMigration
